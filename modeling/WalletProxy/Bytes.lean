/-! Byte strings as lists, with the little-endian numbers and the fixed 32-byte words that the
block and transaction formats are made of. -/
namespace WalletProxy

abbrev Bytes := List UInt8

namespace Bytes

def ofNat : (width value : Nat) → Bytes
  | 0, _ => []
  | width + 1, value => UInt8.ofNat value :: ofNat width (value / 256)

def toNat : Bytes → Nat
  | [] => 0
  | b :: rest => b.toNat + 256 * toNat rest

def ofText (text : String) : Bytes := text.toUTF8.data.toList

def toText? (bytes : Bytes) : Option String := String.fromUTF8? ⟨bytes.toArray⟩

@[simp] theorem lengthOfNat (width value : Nat) : (ofNat width value).length = width := by
  induction width generalizing value with
  | zero => rfl
  | succ width ih => simp [ofNat, ih]

end Bytes

abbrev Bytes32 := { bytes : Bytes // bytes.length = 32 }

namespace Bytes32

def zero : Bytes32 := ⟨List.replicate 32 0, List.length_replicate⟩

instance : Inhabited Bytes32 := ⟨zero⟩

def ofBytes? (bytes : Bytes) : Option Bytes32 :=
  if size : bytes.length = 32 then some ⟨bytes, size⟩ else none

end Bytes32

end WalletProxy
