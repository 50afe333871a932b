import WalletProxy.Transaction.Reader

/-! Compact transactions and blocks: of each shielded payment the parts a light wallet needs to
find and spend its notes. -/
namespace WalletProxy

structure CompactSpend where
  nullifier : Bytes
  deriving DecidableEq, Repr

structure CompactOutput where
  note : Bytes
  ephemeralKey : Bytes
  ciphertext : Bytes
  deriving DecidableEq, Repr

structure CompactAction where
  nullifier : Bytes
  note : Bytes
  ephemeralKey : Bytes
  ciphertext : Bytes
  deriving DecidableEq, Repr

structure CompactTx where
  index : Nat
  hash : Bytes
  fee : UInt32
  spends : List CompactSpend
  outputs : List CompactOutput
  actions : List CompactAction
  deriving DecidableEq, Repr

structure CompactBlock where
  protoVersion : UInt32
  height : Nat
  hash : Bytes
  prevHash : Bytes
  time : UInt32
  header : Bytes
  transactions : List CompactTx
  deriving DecidableEq, Repr

def SaplingSpend.compact (spend : SaplingSpend) : CompactSpend := ⟨spend.nullifier.val⟩

def SaplingOutput.compact (output : SaplingOutput) : CompactOutput :=
  ⟨output.note.val, output.ephemeralKey.val, output.ciphertext.take TxDigest.compactLength⟩

def OrchardAction.compact (action : OrchardAction) : CompactAction :=
  ⟨action.nullifier.val, action.note.val, action.ephemeralKey.val,
    action.ciphertext.take TxDigest.compactLength⟩

def Transaction.compact (index : Nat) (tx : Transaction) : CompactTx where
  index
  hash := tx.id.val
  fee := 0
  spends := tx.body.sapling.spends.map SaplingSpend.compact
  outputs := tx.body.sapling.outputs.map SaplingOutput.compact
  actions := tx.body.orchard.actions.map OrchardAction.compact

def Transaction.isShielded (tx : Transaction) : Bool := tx.body.isShielded

end WalletProxy
