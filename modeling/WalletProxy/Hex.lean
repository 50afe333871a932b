import WalletProxy.Bytes

/-! Hexadecimal text. Bytes are written as two lower case digits each; both digit cases are read.
A text that is not hexadecimal is refused with the first fault: an odd number of digits, else the
first byte that is no digit. -/
namespace WalletProxy.Hex

inductive Error where
  | oddLength
  | badDigit (byte : UInt8) (index : Nat)
  deriving DecidableEq, Repr

def digit (value : UInt8) : UInt8 := if value < 10 then 48 + value else 87 + value

def value? (byte : UInt8) : Option UInt8 :=
  if 48 ≤ byte ∧ byte ≤ 57 then some (byte - 48)
  else if 97 ≤ byte ∧ byte ≤ 102 then some (byte - 87)
  else if 65 ≤ byte ∧ byte ≤ 70 then some (byte - 55)
  else none

def digits (byte : UInt8) : Bytes := [digit (byte / 16), digit (byte % 16)]

def encodeBytes (bytes : Bytes) : Bytes := bytes.flatMap digits

def encode (bytes : Bytes) : String :=
  String.ofList ((encodeBytes bytes).map fun byte => Char.ofNat byte.toNat)

/-- Reads digit pairs from position `index` on, after the bytes `done` (latest first). -/
def decodeFrom (index : Nat) (done : Bytes) : Bytes → Except Error Bytes
  | high :: low :: rest =>
      match value? high, value? low with
      | none, _ => .error (.badDigit high index)
      | some _, none => .error (.badDigit low (index + 1))
      | some h, some l => decodeFrom (index + 2) ((16 * h + l) :: done) rest
  | _ => .ok done.reverse

def decodeBytes (text : Bytes) : Except Error Bytes :=
  if text.length % 2 = 1 then .error .oddLength else decodeFrom 0 [] text

def decode (text : String) : Except Error Bytes := decodeBytes (Bytes.ofText text)

def isDigit (c : Char) : Bool :=
  c.isDigit || ('a' ≤ c && c ≤ 'f') || ('A' ≤ c && c ≤ 'F')

def ofNat (n : Nat) : String := String.ofList (Nat.toDigits 16 n)

/-- A byte shown as the character of that code point: control characters, the no-break space and
the soft hyphen by their code, the quote and the backslash escaped. -/
def shownByte (byte : UInt8) : String :=
  if byte = 0 then "\\0"
  else if byte = 9 then "\\t"
  else if byte = 10 then "\\n"
  else if byte = 13 then "\\r"
  else if byte = 39 then "\\'"
  else if byte = 92 then "\\\\"
  else if byte < 32 ∨ (127 ≤ byte ∧ byte ≤ 160) ∨ byte = 173 then
    "\\u\x7b" ++ ofNat byte.toNat ++ "\x7d"
  else String.singleton (Char.ofNat byte.toNat)

def Error.message : Error → String
  | .oddLength => "Odd number of digits"
  | .badDigit byte index => s!"Invalid character '{shownByte byte}' at position {index}"

end WalletProxy.Hex
