import WalletProxy.Transaction.Reader

/-! The height of a block, as its first transaction declares it: the script of that transaction's
first input starts with a push of the height. -/
namespace WalletProxy

inductive BlockError where
  | read (fault : ReadError)
  | hex (fault : Hex.Error)
  | noTransactions
  | trailingBytes (count : Nat)
  | noHeight
  | full (height : Nat)
  deriving DecidableEq, Repr

def BlockError.message : BlockError → String
  | read fault => s!"decode error. {fault.message}"
  | hex fault => s!"hex decode error. {fault.message}"
  | noTransactions => "block has no transactions"
  | trailingBytes count => s!"block serialization is too long by {count} bytes"
  | noHeight => "coinbase script does not encode a height"
  | full height => s!"block at height {height} already holds the maximum of 253 transactions"

namespace Coinbase
open Reader

/-- The script of a transaction's first input, if it has an input. Only what stands before the
inputs is looked at, whatever the layout. -/
def firstScript : Reader (Option Bytes) := do
  let header ← word
  let version := header &&& 0x7fffffff
  if header ≠ version then
    TxBody.skip 4
    if 5 ≤ version then TxBody.skip 12
  let inputs ← CompactSize.read
  if inputs = 0 then return none
  TxBody.skip 36
  let script ← CompactSize.bytes
  return some script

/-- The first block pushes its difficulty target where later ones push their height. -/
def firstBlockPush : Nat := 520617983

/-- The number that a script starts with: one of the opcodes for 0 to 16, or up to eight bytes. -/
def pushed? : Bytes → Option Nat
  | [] => none
  | opcode :: rest =>
      if opcode = 0 then some 0
      else if 0x51 ≤ opcode ∧ opcode ≤ 0x60 then some (opcode.toNat - 0x50)
      else if opcode ≤ 8 ∧ opcode.toNat ≤ rest.length then
        some (Bytes.toNat (rest.take opcode.toNat))
      else none

def scriptHeight (script : Bytes) : Except BlockError Nat :=
  match pushed? script with
  | none => .error .noHeight
  | some height => .ok (if height = firstBlockPush then 0 else height)

def height (tx : Bytes) : Except BlockError Nat :=
  match firstScript tx with
  | .error fault => .error (.read fault)
  | .ok (none, _) => .error .noHeight
  | .ok (some script, _) => scriptHeight script

end Coinbase

end WalletProxy
