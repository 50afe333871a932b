import WalletProxy.Curve.PrimeField

/-! The Pallas curve `y² = x³ + 5`. A point is written as `x` in 255 bits with the lowest bit of
`y` above them, and the neutral one as zeros. -/
namespace WalletProxy.Pallas

def order : Nat := 0x40000000000000000000000000000000224698fc094cf91b992d30ed00000001

def isBase (word : Bytes32) : Bool := Bytes.toNat word.val < order

def isIdentity (word : Bytes32) : Bool := word = Bytes32.zero

def isPoint (word : Bytes32) : Bool :=
  let x := Bytes.toNat word.val % Nat.pow 2 255
  isIdentity word || (x < order && PrimeField.isSquare order (x * x * x + 5))

end WalletProxy.Pallas
