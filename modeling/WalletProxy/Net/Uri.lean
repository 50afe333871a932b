import WalletProxy.Bytes

/-! Which texts are addresses of services: an absolute one with scheme and authority, an authority
alone, a path alone, or an asterisk. -/
namespace WalletProxy.Net.Uri

def isAlphanum (b : UInt8) : Bool :=
  (48 ≤ b && b ≤ 57) || (65 ≤ b && b ≤ 90) || (97 ≤ b && b ≤ 122)

def isOneOf (chars : String) (b : UInt8) : Bool := (Bytes.ofText chars).contains b

def isSchemeByte (b : UInt8) : Bool := isAlphanum b || isOneOf "+-.:~" b

def isAuthorityByte (b : UInt8) : Bool := isAlphanum b || isOneOf "!#$&'()*+,-./:;=?@[]_~" b

structure Authority where
  colons : Nat
  opened : Bool
  closed : Bool
  percent : Bool
  atMark : Bool

namespace Authority

def start : Authority := ⟨0, false, false, false, false⟩

def step (seen : Authority) (b : UInt8) : Option Authority :=
  let seen := { seen with atMark := false }
  if b = 58 then if 8 ≤ seen.colons then none else some { seen with colons := seen.colons + 1 }
  else if b = 91 then
    if seen.percent || seen.opened then none else some { seen with opened := true }
  else if b = 93 then
    if !seen.opened || seen.closed then none
    else some { seen with closed := true, colons := 0, percent := false }
  else if b = 64 then some { seen with atMark := true, colons := 0, percent := false }
  else if b = 37 then some { seen with percent := true }
  else if isAuthorityByte b then some seen
  else none

def isDone (seen : Authority) : Bool :=
  seen.opened = seen.closed && seen.colons ≤ 1 && !seen.atMark && !seen.percent

end Authority

def endsAuthority (b : UInt8) : Bool := isOneOf "/?#" b

def isAuthority (bytes : Bytes) : Bool :=
  match bytes.foldlM Authority.step .start with
  | some seen => seen.isDone
  | none => false

/-- Bytes that stand in a path as they are, among them some that should not. -/
def isPathByte (b : UInt8) : Bool :=
  b = 0x21 || (0x24 ≤ b && b ≤ 0x3b) || b = 0x3d || (0x40 ≤ b && b ≤ 0x5f) ||
    (0x61 ≤ b && b ≤ 0x7a) || b = 0x7c || b = 0x7e || 0x7f ≤ b || isOneOf "\"\x7b\x7d" b

def isQueryByte (b : UInt8) : Bool :=
  b = 0x21 || (0x24 ≤ b && b ≤ 0x3b) || b = 0x3d || 0x3f ≤ b

def isPath (bytes : Bytes) : Bool :=
  let known := bytes.takeWhile (· ≠ 35)
  (known.takeWhile (· ≠ 63)).all isPathByte && ((known.dropWhile (· ≠ 63)).drop 1).all isQueryByte

def startsWith (start bytes : Bytes) : Bool :=
  (bytes.take start.length).map (fun b => if 65 ≤ b ∧ b ≤ 90 then b + 32 else b) = start

inductive Scheme where
  | missing
  | upTo (size : Nat)
  | tooLong
  deriving DecidableEq, Repr

def scheme (bytes : Bytes) : Scheme :=
  if startsWith (Bytes.ofText "http://") bytes then .upTo 4
  else if startsWith (Bytes.ofText "https://") bytes then .upTo 5
  else
    let size := (bytes.takeWhile fun b => isSchemeByte b && b ≠ 58).length
    if (bytes.drop size).take 3 = Bytes.ofText "://" then
      if 64 < size then .tooLong else .upTo size
    else .missing

def maxLength : Nat := 65534

def isAbsolute (bytes : Bytes) : Bool :=
  match scheme bytes with
  | .tooLong => false
  | .missing => isAuthority bytes && !bytes.any endsAuthority
  | .upTo size =>
      let rest := bytes.drop (size + 3)
      let authority := rest.takeWhile (!endsAuthority ·)
      !authority.isEmpty && isAuthority authority && isPath (rest.dropWhile (!endsAuthority ·))

def isUri (text : String) : Bool :=
  match Bytes.ofText text with
  | [] => false
  | [b] => b = 47 || b = 42 || (isAuthority [b] && !endsAuthority b)
  | b :: rest =>
      (b :: rest).length ≤ maxLength &&
        if b = 47 then isPath (b :: rest) else isAbsolute (b :: rest)

end WalletProxy.Net.Uri
