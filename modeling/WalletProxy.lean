import WalletProxy.Block.Basic
import WalletProxy.Block.Header
import WalletProxy.Block.Height
import WalletProxy.Bytes
import WalletProxy.CommandLine
import WalletProxy.Compact
import WalletProxy.CompactSize
import WalletProxy.Curve.Jubjub
import WalletProxy.Curve.Pallas
import WalletProxy.Curve.PrimeField
import WalletProxy.Digest.Blake2b
import WalletProxy.Digest.Sha256
import WalletProxy.Duration
import WalletProxy.Follower
import WalletProxy.Hex
import WalletProxy.Job
import WalletProxy.Json.Basic
import WalletProxy.Json.Number
import WalletProxy.Json.Printer
import WalletProxy.Json.Reader
import WalletProxy.Json.Token
import WalletProxy.Launch
import WalletProxy.Main
import WalletProxy.Mempool.Basic
import WalletProxy.Mempool.Refresh
import WalletProxy.Mempool.Withhold
import WalletProxy.Net.SocketAddress
import WalletProxy.Net.Uri
import WalletProxy.Node.Answering
import WalletProxy.Node.Error
import WalletProxy.Node.Fetch
import WalletProxy.Node.Remote
import WalletProxy.Node.Reply
import WalletProxy.Node.Script
import WalletProxy.Proofs.BlockFormat
import WalletProxy.Proofs.ChainRun
import WalletProxy.Proofs.Commit
import WalletProxy.Proofs.CommitBatches
import WalletProxy.Proofs.CompactBlocks
import WalletProxy.Proofs.CompactSizeExact
import WalletProxy.Proofs.DeclaredHeight
import WalletProxy.Proofs.FileStaging
import WalletProxy.Proofs.FilledBlocks
import WalletProxy.Proofs.FillerBlocks
import WalletProxy.Proofs.FollowerSettles
import WalletProxy.Proofs.FollowerSleeps
import WalletProxy.Proofs.FollowerTurn
import WalletProxy.Proofs.HandlerRun
import WalletProxy.Proofs.HeaderCodec
import WalletProxy.Proofs.HeightBounds
import WalletProxy.Proofs.HeldSuffixes
import WalletProxy.Proofs.IdleWindow
import WalletProxy.Proofs.InPlaceEdits
import WalletProxy.Proofs.IncomingKept
import WalletProxy.Proofs.JobCrew
import WalletProxy.Proofs.JsonIntegers
import WalletProxy.Proofs.MempoolFreshness
import WalletProxy.Proofs.MempoolSnapshots
import WalletProxy.Proofs.NodeIntegers
import WalletProxy.Proofs.OrchardPointers
import WalletProxy.Proofs.Placement
import WalletProxy.Proofs.ProxyRun
import WalletProxy.Proofs.RangeWalk
import WalletProxy.Proofs.ReaderExact
import WalletProxy.Proofs.RefreshSteps
import WalletProxy.Proofs.RelativeJobs
import WalletProxy.Proofs.Reorganization
import WalletProxy.Proofs.ResetIsolates
import WalletProxy.Proofs.Results
import WalletProxy.Proofs.SegmentSteps
import WalletProxy.Proofs.ServedChain
import WalletProxy.Proofs.SessionRun
import WalletProxy.Proofs.SessionSteps
import WalletProxy.Proofs.ShieldedParts
import WalletProxy.Proofs.SimulationLimit
import WalletProxy.Proofs.Staging
import WalletProxy.Proofs.StagingArea
import WalletProxy.Proofs.StagingUnseen
import WalletProxy.Proofs.TextRoundTrip
import WalletProxy.Proofs.TransactionLookup
import WalletProxy.Proofs.TransactionSequential
import WalletProxy.Proofs.TreeEndings
import WalletProxy.Proofs.TreePointers
import WalletProxy.Proofs.UtxoSelection
import WalletProxy.Proofs.WalletJobs
import WalletProxy.Proofs.WindowBesideChain
import WalletProxy.Proofs.WindowRun
import WalletProxy.Proofs.WindowSteps
import WalletProxy.Proofs.WithholdFilter
import WalletProxy.Protobuf.Field
import WalletProxy.Protobuf.Message
import WalletProxy.Proxy.Basic
import WalletProxy.Proxy.Perform
import WalletProxy.Reader
import WalletProxy.Settings
import WalletProxy.Sim.Chain
import WalletProxy.Sim.File
import WalletProxy.Sim.Filler
import WalletProxy.Sim.Node
import WalletProxy.Sim.Proxy
import WalletProxy.Sim.Segment
import WalletProxy.Sim.Session
import WalletProxy.Status
import WalletProxy.Text.Base64
import WalletProxy.Text.Blank
import WalletProxy.Transaction.Basic
import WalletProxy.Transaction.Digest
import WalletProxy.Transaction.Reader
import WalletProxy.Unsigned
import WalletProxy.Wallet.Addresses
import WalletProxy.Wallet.Blocks
import WalletProxy.Wallet.Handler
import WalletProxy.Wallet.Info
import WalletProxy.Wallet.Message
import WalletProxy.Wallet.Transactions
import WalletProxy.Wallet.Trees
import WalletProxy.Window
