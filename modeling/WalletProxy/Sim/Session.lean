import WalletProxy.Proxy.Perform
import WalletProxy.Sim.Proxy
import WalletProxy.Wallet.Addresses
import WalletProxy.Wallet.Blocks
import WalletProxy.Wallet.Info
import WalletProxy.Wallet.Trees

/-! Sessions of a proxy over the simulated chain: calls of a test and of wallets one after another,
and between them turns of the follower and time that passes. The chain answers at once, so a call
ends before the next one comes. -/
namespace WalletProxy
open Unsigned (Overflow)

namespace Wallet

inductive Request where
  | latestBlock
  | block (id : BlockId)
  | blockRange (range : BlockRange)
  | transaction (filter : TxFilter)
  | send (tx : RawTx)
  | addressTxs (filter : AddressFilter)
  | balance (addresses : List String)
  | mempoolTxs (held : List Bytes)
  | treeState (id : BlockId)
  | utxos (filter : UtxoFilter)
  | utxoStream (filter : UtxoFilter)
  | serverInfo

inductive Response where
  | latestBlock (result : Except Status BlockId)
  | block (result : Except Status CompactBlock)
  | blockRange (result : Except Status (Proxy.Received CompactBlock))
  | transaction (result : Except Status RawTx)
  | send (result : Except Status SendResponse)
  | addressTxs (result : Except Status (Proxy.Received RawTx))
  | balance (result : Except Status Balance)
  | mempoolTxs (result : Except Status (Proxy.Received CompactTx))
  | treeState (result : Option (Except Status TreeState))
  | utxos (result : Except Status (List Utxo))
  | utxoStream (result : Except Status (Proxy.Received Utxo))
  | serverInfo (result : Except Status ServerInfo)

end Wallet

namespace SimProxy

variable {ι α : Type}

def outcome (job : Job Store ι α) (proxy : SimProxy) : Job.Outcome Store ι SimChain α :=
  Job.run SimChain.answer job proxy.store proxy.node

/-- The proxy when a job has been done. -/
def having (job : Job Store ι α) (proxy : SimProxy) : SimProxy :=
  { proxy with store := (proxy.outcome job).store, node := (proxy.outcome job).node }

def did (job : Job Store Empty α) (proxy : SimProxy) : α × SimProxy :=
  ((proxy.outcome job).value, proxy.having job)

def called (handler : Wallet.Handler Empty α) (proxy : SimProxy) : Except Status α × SimProxy :=
  proxy.did handler.run

def received (stream : Wallet.Stream ι) (proxy : SimProxy) : Proxy.Received ι × SimProxy :=
  let outcome := proxy.outcome stream.produce
  (⟨outcome.items, outcome.value⟩, proxy.having stream.produce)

def receivedIf : Except Status (Wallet.Stream ι) → SimProxy →
    Except Status (Proxy.Received ι) × SimProxy
  | .error status, proxy => (.error status, proxy)
  | .ok stream, proxy => Prod.map .ok id (proxy.received stream)

def streamed (handler : Wallet.Handler Empty (Wallet.Stream ι)) (proxy : SimProxy) :
    Except Status (Proxy.Received ι) × SimProxy :=
  let (result, proxy) := proxy.called handler
  receivedIf result proxy

def serve (proxy : SimProxy) : Wallet.Request → Wallet.Response × SimProxy
  | .latestBlock => Prod.map .latestBlock id (proxy.called Wallet.latestBlock)
  | .block block => Prod.map .block id (proxy.called (Wallet.getBlock block))
  | .blockRange range => Prod.map .blockRange id (proxy.streamed (Wallet.getBlockRange range))
  | .transaction filter => Prod.map .transaction id (proxy.called (Wallet.getTransaction filter))
  | .send tx => Prod.map .send id (proxy.called (Wallet.sendTransaction tx))
  | .addressTxs filter => Prod.map .addressTxs id (proxy.streamed (Wallet.addressTxs filter))
  | .balance addresses => Prod.map .balance id (proxy.called (Wallet.getBalance addresses))
  | .mempoolTxs held => Prod.map .mempoolTxs id (proxy.streamed (Wallet.mempoolTxs held))
  | .treeState block =>
      Prod.map .treeState id (proxy.did (Wallet.treeState Proxy.patience block))
  | .utxos filter => Prod.map .utxos id (proxy.called (Wallet.getUtxos filter))
  | .utxoStream filter => Prod.map .utxoStream id (proxy.streamed (Wallet.getUtxoStream filter))
  | .serverInfo => Prod.map .serverInfo id (proxy.called Wallet.serverInfo)

/-- Lets the follower take a turn, if it is due. -/
def turn (proxy : SimProxy) : SimProxy :=
  match proxy.follower with
  | none => proxy
  | some activity =>
      if activity.due ≤ proxy.now then Proxy.follow activity.job proxy else proxy

def recordIncoming (proxy : SimProxy) (bytes : Bytes) : Except SimError Bytes32 × SimProxy :=
  let (result, node) := proxy.node.recordIncoming bytes
  (result, { proxy with node })

inductive Input where
  | reset (activation : Int) (branch name : String)
  | stageTexts (texts : List String)
  | stageFile (fetched : Except String String)
  | stageFiller (height : Int) (nonce : Int32) (count : Int)
  | stageTxs (txs : List (Nat × Bytes))
  | stageTxFile (height : Int) (fetched : Except String String)
  | applyStaged (height : Int)
  | incoming
  | clearIncoming
  | recordIncoming (bytes : Bytes)
  | wallet (request : Wallet.Request)
  | turn
  | pass (time : Nat)

inductive Output where
  | nothing
  /-- The program has ended the call, and there is no answer. -/
  | unanswered
  | control (result : Except Status Unit)
  | incoming (received : Proxy.Received Wallet.RawTx)
  | recorded (result : Except SimError Bytes32)
  | wallet (response : Wallet.Response)

def Output.controlIf : Option (Except Status Unit) → Output
  | none => .unanswered
  | some result => .control result

def feed (overflow : Overflow) (proxy : SimProxy) : Input → Output × SimProxy
  | .reset activation branch name => Prod.map .control id (proxy.reset activation branch name)
  | .stageTexts texts => Prod.map .control id (proxy.stageTexts texts)
  | .stageFile fetched => Prod.map .control id (proxy.stageFile fetched)
  | .stageFiller height nonce count =>
      Prod.map .controlIf id (proxy.stageFiller overflow height nonce count)
  | .stageTxs txs => Prod.map .control id (proxy.stageTxs txs)
  | .stageTxFile height fetched => Prod.map .control id (proxy.stageTxFile height fetched)
  | .applyStaged height => Prod.map .controlIf id (proxy.applyStaged overflow height)
  | .incoming => Prod.map .incoming id (proxy.received proxy.incoming)
  | .clearIncoming => (.control (.ok ()), proxy.clearIncoming)
  | .recordIncoming bytes => Prod.map .recorded id (proxy.recordIncoming bytes)
  | .wallet request => Prod.map .wallet id (proxy.serve request)
  | .turn => (.nothing, proxy.turn)
  | .pass time => (.nothing, proxy.atTime (proxy.now + time))

def after (overflow : Overflow) (proxy : SimProxy) (inputs : List Input) : SimProxy :=
  inputs.foldl (fun proxy input => (proxy.feed overflow input).2) proxy

/-- What was put in during a session, and what came out for it. -/
def record (overflow : Overflow) (proxy : SimProxy) : List Input → List (Input × Output)
  | [] => []
  | input :: rest =>
      (input, (proxy.feed overflow input).1) :: (proxy.feed overflow input).2.record overflow rest

end SimProxy

end WalletProxy
