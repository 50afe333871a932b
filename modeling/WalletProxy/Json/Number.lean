/-! The numbers of JSON text. An integer of at most 64 bits is kept as it is; every other number
becomes the nearest binary fraction of 64 bits, and is written with the fewest digits that read
back as the same. -/
namespace WalletProxy

namespace Binary64

structure Parts where
  negative : Bool
  mantissa : Nat
  exponent : Int
  deriving DecidableEq, Repr

def parts (bits : UInt64) : Parts :=
  let field : Nat := (bits.toNat / Nat.pow 2 52) % Nat.pow 2 11
  let fraction : Nat := bits.toNat % Nat.pow 2 52
  { negative := Nat.pow 2 63 ≤ bits.toNat
    mantissa := if field = 0 then fraction else Nat.pow 2 52 + fraction
    exponent := ((max field 1 : Nat) : Int) - 1075 }

structure Ratio where
  num : Nat
  den : Nat
  deriving DecidableEq, Repr

namespace Ratio

def scaled (n base : Nat) (exponent : Int) : Ratio :=
  if 0 ≤ exponent then ⟨n * Nat.pow base exponent.toNat, 1⟩
  else ⟨n, Nat.pow base (-exponent).toNat⟩

def shrunk (r : Ratio) (base : Nat) (exponent : Int) : Ratio :=
  if 0 ≤ exponent then ⟨r.num, r.den * Nat.pow base exponent.toNat⟩
  else ⟨r.num * Nat.pow base (-exponent).toNat, r.den⟩

def floor (r : Ratio) : Nat := r.num / r.den

/-- The nearest whole number; a half goes to the even one. -/
def round (r : Ratio) : Nat :=
  let low := r.floor
  let twice := 2 * (r.num % r.den)
  if twice < r.den ∨ (twice = r.den ∧ low % 2 = 0) then low else low + 1

def le (r s : Ratio) : Bool := r.num * s.den ≤ s.num * r.den
def lt (r s : Ratio) : Bool := r.num * s.den < s.num * r.den

end Ratio

def nearest (r : Ratio) : Option Nat :=
  let guess : Int := (r.num.log2 : Int) - (r.den.log2 : Int) - 52
  let scale := if (r.shrunk 2 guess).floor < Nat.pow 2 52 then guess - 1 else guess
  let scale := max scale (-1074)
  let mantissa := (r.shrunk 2 scale).round
  let (mantissa, scale) :=
    if mantissa = Nat.pow 2 53 then (Nat.pow 2 52, scale + 1) else (mantissa, scale)
  if mantissa < Nat.pow 2 52 then some mantissa
  else
    let field := (scale + 1075).toNat
    if 2047 ≤ field then none else some (field * Nat.pow 2 52 + (mantissa - Nat.pow 2 52))

def ofDecimal (negative : Bool) (digits : Nat) (exponent : Int) : Option UInt64 := do
  let size : Int := (Nat.toDigits 10 digits).length + exponent
  let magnitude ←
    if digits = 0 ∨ size < -400 then some 0
    else if 400 < size then none
    else nearest (Ratio.scaled digits 10 exponent)
  return UInt64.ofNat (magnitude + if negative then Nat.pow 2 63 else 0)

/-- The digits nearest to a value among the multiples of `10 ^ place` that read back as it. -/
def digitsAt? (mantissa : Nat) (exponent place : Int) : Option Nat :=
  let value := Ratio.scaled (4 * mantissa) 2 (exponent - 2)
  let gap := if mantissa = Nat.pow 2 52 ∧ -1074 < exponent then 1 else 2
  let low := Ratio.scaled (4 * mantissa - gap) 2 (exponent - 2)
  let high := Ratio.scaled (4 * mantissa + 2) 2 (exponent - 2)
  let inside (n : Nat) : Bool :=
    let r := Ratio.scaled n 10 place
    if mantissa % 2 = 0 then low.le r && r.le high else low.lt r && r.lt high
  let grid := value.shrunk 10 place
  let near := grid.round
  let other := if near = grid.floor then near + 1 else grid.floor
  if inside near then some near else if inside other then some other else none

/-- The fewest digits that read back as a positive value, and the place of the last of them. -/
def shortest (mantissa : Nat) (exponent : Int) : Nat × Int :=
  let places := (List.range 634).map fun (n : Nat) => (309 - n : Int)
  match places.findSome? fun place => (digitsAt? mantissa exponent place).map (·, place) with
  | some found => found
  | none => (mantissa, 0)

/-- Digits as they are written: with a point if their magnitude is between 10⁻⁵ and 10¹⁶, and with
an exponent otherwise. -/
def layout (digits : List Char) (place : Int) : List Char :=
  let point := digits.length + place
  if 0 ≤ place ∧ point ≤ 16 then digits ++ List.replicate place.toNat '0' ++ ['.', '0']
  else if 0 < point ∧ point ≤ 16 then
    digits.take point.toNat ++ '.' :: digits.drop point.toNat
  else if -5 < point ∧ point ≤ 0 then
    '0' :: '.' :: (List.replicate (-point).toNat '0' ++ digits)
  else
    let exponent := (toString (point - 1)).toList
    match digits with
    | [digit] => digit :: 'e' :: exponent
    | first :: rest => first :: '.' :: (rest ++ 'e' :: exponent)
    | [] => []

def text (bits : UInt64) : String :=
  let p := parts bits
  let sign := if p.negative then ['-'] else []
  if p.mantissa = 0 then String.ofList (sign ++ ['0', '.', '0'])
  else
    let (digits, place) := shortest p.mantissa p.exponent
    String.ofList (sign ++ layout (Nat.toDigits 10 digits) place)

end Binary64

inductive JsonNumber where
  | int (value : Int)
  | fraction (bits : UInt64)
  deriving DecidableEq, Repr

namespace JsonNumber

def digitsValue (digits : List Char) : Nat :=
  digits.foldl (fun n c => 10 * n + (c.toNat - '0'.toNat)) 0

def digits? (text : List Char) : Option (List Char × List Char) :=
  match text.takeWhile Char.isDigit with
  | [] => none
  | digits => some (digits, text.dropWhile Char.isDigit)

def fractionPart (text : List Char) : Option (List Char × List Char) :=
  match text with
  | '.' :: rest => digits? rest
  | _ => some ([], text)

/-- A part that gives a power of ten; it may be missing, and nothing follows it. -/
def exponentPart (text : List Char) : Option Int := do
  match text with
  | [] => some 0
  | mark :: rest =>
      if mark ≠ 'e' ∧ mark ≠ 'E' then none else
      let (negative, rest) := match rest with
        | '-' :: rest => (true, rest)
        | '+' :: rest => (false, rest)
        | _ => (false, rest)
      let (digits, rest) ← digits? rest
      if rest ≠ [] then none else
      let size : Int := digitsValue digits
      some (if negative then -size else size)

def read (text : List Char) : Option JsonNumber := do
  let (negative, text) := match text with
    | '-' :: rest => (true, rest)
    | _ => (false, text)
  let (whole, rest) ← digits? text
  if whole.head? = some '0' ∧ whole ≠ ['0'] then none else
  let (decimals, tail) ← fractionPart rest
  let exponent ← exponentPart tail
  let value := digitsValue whole
  if rest = [] ∧ (if negative then 0 < value ∧ value ≤ Nat.pow 2 63 else value < UInt64.size) then
    some (.int (if negative then -(value : Int) else value))
  else
    (Binary64.ofDecimal negative (digitsValue (whole ++ decimals))
      (exponent - decimals.length)).map .fraction

def text : JsonNumber → String
  | int value => toString value
  | fraction bits => Binary64.text bits

end JsonNumber

end WalletProxy
