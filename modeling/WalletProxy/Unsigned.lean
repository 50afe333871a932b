/-! Whole numbers in decimal digits, with or without a plus sign before them, and up to a greatest
one. -/
namespace WalletProxy.Unsigned

def digitsValue (digits : List Char) : Nat :=
  digits.foldl (fun n c => 10 * n + (c.toNat - 48)) 0

def unsigned : List Char → List Char
  | '+' :: digits => digits
  | digits => digits

def read? (greatest : Nat) (text : String) : Option Nat :=
  let digits := unsigned text.toList
  if digits.isEmpty ∨ !digits.all Char.isDigit then none
  else
    let value := digitsValue digits
    if value ≤ greatest then some value else none

def greatest64 : Nat := UInt64.size - 1

/-- What a program was built to do when a number does not fit in 64 bits: it ends, or it goes on
with what is left of the number modulo 2⁶⁴. -/
inductive Overflow where
  | ends
  | wraps
  deriving DecidableEq, Repr

def Overflow.in64 (overflow : Overflow) (value : Nat) : Option Nat :=
  if value ≤ greatest64 then some value
  else match overflow with
    | ends => none
    | wraps => some (value % UInt64.size)

namespace Overflow
variable {overflow : Overflow} {value result : Nat}

theorem in64Fits (fits : value ≤ greatest64) : overflow.in64 value = some value := if_pos fits

theorem in64Le (counted : overflow.in64 value = some result) : result ≤ value := by
  unfold in64 at counted
  split at counted
  · cases counted
    exact Nat.le_refl _
  · cases overflow with
    | ends => contradiction
    | wraps =>
      cases counted
      exact Nat.mod_le _ _

theorem in64None : overflow.in64 value = none ↔ overflow = .ends ∧ greatest64 < value := by
  unfold in64
  split
  · rename_i fits
    simp [Nat.not_lt.mpr fits]
  · rename_i beyond
    cases overflow with
    | ends => simp [Nat.lt_of_not_le beyond]
    | wraps => simp

end Overflow

end WalletProxy.Unsigned
