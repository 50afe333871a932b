/-! Internet addresses with a port, in their usual texts. -/
namespace WalletProxy.Net

structure IPv4 where
  octets : List Nat
  deriving DecidableEq, Repr

structure IPv6 where
  groups : List Nat
  deriving DecidableEq, Repr

inductive SocketAddress where
  | v4 (host : IPv4) (port : Nat)
  | v6 (host : IPv6) (scope port : Nat)
  deriving DecidableEq, Repr

abbrev Scan (α : Type) := List Char → Option (α × List Char)

def digitValue (c : Char) : Nat :=
  if c.isDigit then c.toNat - 48
  else if 'a' ≤ c ∧ c ≤ 'f' then c.toNat - 87
  else if 'A' ≤ c ∧ c ≤ 'F' then c.toNat - 55
  else 99

def scanDigits (base : Nat) (text : List Char) : List Char × List Char :=
  (text.takeWhile (digitValue · < base), text.dropWhile (digitValue · < base))

def digitsValue (base : Nat) (digits : List Char) : Nat :=
  digits.foldl (fun n c => base * n + digitValue c) 0

def scanNumber (base places greatest : Nat) (zeroFirst : Bool) : Scan Nat := fun text =>
  let (digits, rest) := scanDigits base text
  let value := digitsValue base digits
  if digits.isEmpty ∨ places < digits.length ∨ greatest < value then none
  else if !zeroFirst && digits.head? = some '0' && 1 < digits.length then none
  else some (value, rest)

def scanChar (expected : Char) : Scan Unit
  | c :: rest => if c = expected then some ((), rest) else none
  | [] => none

def scanIPv4 : Scan IPv4 := fun text => do
  let octet := scanNumber 10 3 255 false
  let (a, rest) ← octet text
  let ((), rest) ← scanChar '.' rest
  let (b, rest) ← octet rest
  let ((), rest) ← scanChar '.' rest
  let (c, rest) ← octet rest
  let ((), rest) ← scanChar '.' rest
  let (d, rest) ← octet rest
  return (⟨[a, b, c, d]⟩, rest)

def scanSeparated (isFirst : Bool) (scan : Scan α) : Scan α := fun text => do
  if isFirst then scan text
  else
    let ((), rest) ← scanChar ':' text
    scan rest

/-- The last two of the groups may be written as an address of four octets. -/
def groupsOf (host : IPv4) : List Nat :=
  match host.octets with
  | [a, b, c, d] => [256 * a + b, 256 * c + d]
  | _ => []

/-- Groups from the front of a text, at most `room` of them after those `found` (the latest first);
and whether they end with four octets. -/
def scanGroups : (room : Nat) → (found : List Nat) → List Char → List Nat × Bool × List Char
  | 0, found, text => (found.reverse, false, text)
  | room + 1, found, text =>
      let quad := if 0 < room then scanSeparated found.isEmpty scanIPv4 text else none
      match quad with
      | some (host, rest) => (found.reverse ++ groupsOf host, true, rest)
      | none =>
          match scanSeparated found.isEmpty (scanNumber 16 4 0xffff true) text with
          | some (group, rest) => scanGroups room (group :: found) rest
          | none => (found.reverse, false, text)

/-- Eight groups, or fewer with two colons in the place of some that are zero. -/
def scanIPv6 : Scan IPv6 := fun text => do
  let (front, quad, rest) := scanGroups 8 [] text
  if front.length = 8 then return (⟨front⟩, rest)
  else if quad then none
  else
    let ((), rest) ← scanChar ':' rest
    let ((), rest) ← scanChar ':' rest
    let (back, _, rest) := scanGroups (7 - front.length) [] rest
    return (⟨front ++ List.replicate (8 - front.length - back.length) 0 ++ back⟩, rest)

def scanPort : Scan Nat := fun text => do
  let ((), rest) ← scanChar ':' text
  scanNumber 10 rest.length 0xffff true rest

def scanScope : Scan Nat := fun text =>
  match text with
  | '%' :: rest => scanNumber 10 rest.length 0xffffffff true rest
  | _ => some (0, text)

def scanAddress : Scan SocketAddress := fun text =>
  match text with
  | '[' :: rest => do
      let (host, rest) ← scanIPv6 rest
      let (scope, rest) ← scanScope rest
      let ((), rest) ← scanChar ']' rest
      let (port, rest) ← scanPort rest
      return (.v6 host scope port, rest)
  | _ => do
      let (host, rest) ← scanIPv4 text
      let (port, rest) ← scanPort rest
      return (.v4 host port, rest)

def SocketAddress.read? (text : String) : Option SocketAddress :=
  match scanAddress text.toList with
  | some (address, []) => some address
  | _ => none

end WalletProxy.Net
