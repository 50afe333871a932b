import WalletProxy.Compact

/-! The messages that wallets and the proxy exchange, beside compact blocks. -/
namespace WalletProxy.Wallet

structure BlockId where
  height : Nat
  hash : Bytes
  deriving DecidableEq, Repr

structure BlockRange where
  start : Option BlockId
  stop : Option BlockId
  deriving DecidableEq, Repr

structure TxFilter where
  block : Option BlockId
  index : Nat
  hash : Bytes
  deriving DecidableEq, Repr

structure RawTx where
  data : Bytes
  height : Nat
  deriving DecidableEq, Repr

structure SendResponse where
  code : Int32
  message : String
  deriving DecidableEq

structure Balance where
  value : Int64
  deriving DecidableEq

structure AddressFilter where
  address : String
  range : Option BlockRange
  deriving DecidableEq, Repr

structure UtxoFilter where
  addresses : List String
  startHeight : Nat
  /-- The most entries to send; 0 is no limit. -/
  maxEntries : Nat
  deriving DecidableEq, Repr

structure Utxo where
  address : String
  txid : Bytes
  index : Int32
  script : Bytes
  value : Int64
  height : Nat
  deriving DecidableEq

structure TreeState where
  network : String
  height : Nat
  hash : String
  time : UInt32
  saplingTree : String
  orchardTree : String
  deriving DecidableEq, Repr

structure ServerInfo where
  version : String
  vendor : String
  taddrSupport : Bool
  chainName : String
  saplingActivation : Nat
  consensusBranch : String
  blockHeight : Nat
  gitCommit : String
  branch : String
  buildDate : String
  buildUser : String
  estimatedHeight : Nat
  nodeBuild : String
  nodeSubversion : String
  deriving DecidableEq, Repr

end WalletProxy.Wallet
