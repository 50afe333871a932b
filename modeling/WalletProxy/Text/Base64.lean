import WalletProxy.Bytes

/-! Bytes as text in the 64 letters, digits and signs that mail and HTTP headers use. -/
namespace WalletProxy.Base64

def letters : List Char :=
  "ABCDEFGHIJKLMNOPQRSTUVWXYZabcdefghijklmnopqrstuvwxyz0123456789+/".toList

def letter (value : Nat) : Char := letters.getD (value % 64) '='

def encodeChars : Bytes → List Char
  | a :: b :: c :: rest =>
      let n := a.toNat * 65536 + b.toNat * 256 + c.toNat
      letter (n / 262144) :: letter (n / 4096) :: letter (n / 64) :: letter n :: encodeChars rest
  | [a, b] =>
      let n := a.toNat * 65536 + b.toNat * 256
      [letter (n / 262144), letter (n / 4096), letter (n / 64), '=']
  | [a] =>
      let n := a.toNat * 65536
      [letter (n / 262144), letter (n / 4096), '=', '=']
  | [] => []

def encode (bytes : Bytes) : String := String.ofList (encodeChars bytes)

end WalletProxy.Base64
