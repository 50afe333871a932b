import WalletProxy.CompactSize

/-! Transactions, with what names them and what a light wallet is told about them. Signatures,
proofs and Sprout payments are checked for their shape when read, and not kept. -/
namespace WalletProxy

structure TxInput where
  prevTx : Bytes32
  prevIndex : UInt32
  script : Bytes
  sequence : UInt32
  deriving DecidableEq, Repr

structure TxOutput where
  value : Nat
  script : Bytes
  deriving DecidableEq, Repr

structure SaplingSpend where
  commitment : Bytes32
  anchor : Bytes32
  nullifier : Bytes32
  key : Bytes32
  deriving DecidableEq, Repr

structure SaplingOutput where
  commitment : Bytes32
  note : Bytes32
  ephemeralKey : Bytes32
  ciphertext : Bytes
  outCiphertext : Bytes
  deriving DecidableEq, Repr

structure SaplingPart where
  spends : List SaplingSpend
  outputs : List SaplingOutput
  balance : Int64
  deriving DecidableEq, Repr

structure OrchardAction where
  commitment : Bytes32
  nullifier : Bytes32
  key : Bytes32
  note : Bytes32
  ephemeralKey : Bytes32
  ciphertext : Bytes
  outCiphertext : Bytes
  deriving DecidableEq, Repr

structure OrchardPart where
  actions : List OrchardAction
  flags : UInt8
  balance : Int64
  anchor : Bytes32
  deriving DecidableEq, Repr

namespace SaplingPart
def empty : SaplingPart := ⟨[], [], 0⟩
def isEmpty (part : SaplingPart) : Bool := part.spends.isEmpty && part.outputs.isEmpty
end SaplingPart

namespace OrchardPart
def empty : OrchardPart := ⟨[], 0, 0, Bytes32.zero⟩
def isEmpty (part : OrchardPart) : Bool := part.actions.isEmpty
end OrchardPart

inductive TxFormat where
  | sprout (version : Nat)
  | overwinter
  | sapling
  | unified (branch : UInt32)
  deriving DecidableEq, Repr

structure TxBody where
  format : TxFormat
  inputs : List TxInput
  outputs : List TxOutput
  lockTime : UInt32
  expiry : UInt32
  sapling : SaplingPart
  orchard : OrchardPart
  deriving DecidableEq, Repr

structure Transaction where
  body : TxBody
  id : Bytes32
  deriving DecidableEq, Repr

def TxBody.isShielded (body : TxBody) : Bool := !body.sapling.isEmpty || !body.orchard.isEmpty

def Bytes32.display (word : Bytes32) : String := Hex.encode word.val.reverse

end WalletProxy
