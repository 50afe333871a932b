import WalletProxy.Curve.PrimeField

/-! The Jubjub curve `v² - u² = 1 + d·u²·v²`, over the scalar field of BLS12-381. A point is
written as `v` in 255 bits with the sign of `u` above them. -/
namespace WalletProxy.Jubjub
open PrimeField (inverse isSquare sub)

def order : Nat := 0x73eda753299d7d483339d80809a1d80553bda402fffe5bfeffffffff00000001

def d : Nat := 0x2a9318e74bfa2b48f5fd9207e6bd7fd4292d7f6d37579d2601065fd6d6343eb1

/-- `u²` at the given `v`; it is the square of a coordinate only if it has a root. -/
def uSquared (v : Nat) : Nat :=
  let square := v * v % order
  sub order square 1 * inverse order ((1 + d * square) % order) % order

def double (v : Nat) : Nat :=
  let square := v * v % order
  let u := uSquared v
  (square + u) * inverse order (sub order 1 (d * (u * square % order) % order)) % order

/-- The `v` coordinate of the point these bytes encode, if they encode one. The point with
`u = 0` has no second sign. -/
def decode? (word : Bytes32) : Option Nat :=
  let value := Bytes.toNat word.val
  let v := value % Nat.pow 2 255
  let u := uSquared v
  if v < order ∧ isSquare order u ∧ ¬ (u = 0 ∧ value ≠ v) then some v else none

def smallOrder (v : Nat) : Bool := double (double (double v)) = 1

def isPoint (word : Bytes32) : Bool := (decode? word).isSome

def isPointOfLargeOrder (word : Bytes32) : Bool :=
  match decode? word with
  | some v => !smallOrder v
  | none => false

def isScalar (word : Bytes32) : Bool := Bytes.toNat word.val < order

end WalletProxy.Jubjub
