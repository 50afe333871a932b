import WalletProxy.Bytes

/-! Arithmetic modulo a prime, as far as telling curve points from other bytes needs it. -/
namespace WalletProxy.PrimeField

def bits (n : Nat) : List Bool := (List.range (n.log2 + 1)).reverse.map n.testBit

def power (modulus base exponent : Nat) : Nat :=
  (bits exponent).foldl (fun acc bit =>
    let square := acc * acc % modulus
    if bit then square * base % modulus else square) 1

/-- The multiplicative inverse modulo a prime; zero has none and gives zero. -/
def inverse (prime x : Nat) : Nat := power prime x (prime - 2)

def isSquare (prime x : Nat) : Bool :=
  x % prime = 0 || power prime (x % prime) ((prime - 1) / 2) = 1

def sub (modulus x y : Nat) : Nat := (x + modulus - y) % modulus

end WalletProxy.PrimeField
