import WalletProxy.Bytes

/-! The fields that a message is sent as: a number and a kind before each value. Fields with their
default value are not sent. -/
namespace WalletProxy.Protobuf

/-- The value of a field, by its kind. Of a group only that it is there is kept. -/
inductive Payload where
  | varint (value : Nat)
  | fixed64 (bytes : Bytes)
  | delimited (bytes : Bytes)
  | group
  | fixed32 (bytes : Bytes)
  deriving DecidableEq, Repr

structure Field where
  number : Nat
  payload : Payload
  deriving DecidableEq, Repr

/-- A number in groups of seven bits, the lowest first; all bytes but the last have the top bit. -/
def varint (value : Nat) : Bytes :=
  if value < 128 then [UInt8.ofNat value]
  else UInt8.ofNat (128 + value % 128) :: varint (value / 128)
termination_by value

/-- A number of at most 64 bits, in at most `places` bytes; of ten bytes the last has one bit. -/
def readVarint : (places : Nat) → Bytes → Option (Nat × Bytes)
  | 0, _ => none
  | _ + 1, [] => none
  | places + 1, byte :: rest =>
      if byte < 128 then
        if places = 0 ∧ 2 ≤ byte then none else some (byte.toNat, rest)
      else do
        let (high, rest) ← readVarint places rest
        return (byte.toNat - 128 + 128 * high, rest)

def readNumber (bytes : Bytes) : Option (Nat × Bytes) := readVarint 10 bytes

def takeExactly (count : Nat) (bytes : Bytes) : Option (Bytes × Bytes) :=
  let (front, rest) := bytes.splitAt count
  if front.length = count then some (front, rest) else none

inductive Kind where
  | varint
  | fixed64
  | delimited
  | openGroup
  | closeGroup
  | fixed32
  deriving DecidableEq, Repr

def Kind.ofNat? : Nat → Option Kind
  | 0 => some varint
  | 1 => some fixed64
  | 2 => some delimited
  | 3 => some openGroup
  | 4 => some closeGroup
  | 5 => some fixed32
  | _ => none

def readKey (bytes : Bytes) : Option (Nat × Kind × Bytes) := do
  let (key, rest) ← readNumber bytes
  let kind ← Kind.ofNat? (key % 8)
  if UInt32.size ≤ key ∨ key / 8 = 0 then none else some (key / 8, kind, rest)

def readPayload (kind : Kind) (bytes : Bytes) : Option (Payload × Bytes) := do
  match kind with
  | .varint =>
      let (value, rest) ← readNumber bytes
      some (.varint value, rest)
  | .fixed64 =>
      let (value, rest) ← takeExactly 8 bytes
      some (.fixed64 value, rest)
  | .fixed32 =>
      let (value, rest) ← takeExactly 4 bytes
      some (.fixed32 value, rest)
  | .delimited =>
      let (size, rest) ← readNumber bytes
      let (value, rest) ← takeExactly size rest
      some (.delimited value, rest)
  | .openGroup | .closeGroup => none

/-- Reads fields after those `found` (the latest first), with groups open (the innermost first) and
at most `depth` of them. Each field takes at least one byte, so as many rounds as there are bytes
are enough. -/
def scanAfter (depth : Nat) :
    (rounds : Nat) → (openGroups : List Nat) → (found : List Field) → Bytes → Option (List Field)
  | _, openGroups, found, [] => if openGroups.isEmpty then some found.reverse else none
  | 0, _, _, _ :: _ => none
  | rounds + 1, openGroups, found, byte :: bytes => do
      let (number, kind, rest) ← readKey (byte :: bytes)
      match kind with
      | .closeGroup =>
          match openGroups with
          | [] => none
          | innermost :: outer =>
              if innermost = number then scanAfter depth rounds outer found rest else none
      | kind =>
          if depth ≤ openGroups.length then none
          else if kind = .openGroup then
            let found := if openGroups.isEmpty then ⟨number, .group⟩ :: found else found
            scanAfter depth rounds (number :: openGroups) found rest
          else do
            let (payload, rest) ← readPayload kind rest
            let found := if openGroups.isEmpty then ⟨number, payload⟩ :: found else found
            scanAfter depth rounds openGroups found rest

def maxDepth : Nat := 100

def scan (depth : Nat) (bytes : Bytes) : Option (List Field) :=
  scanAfter depth bytes.length [] [] bytes

namespace Payload

def nat? : Payload → Option Nat
  | varint value => some value
  | _ => none

def word32? (payload : Payload) : Option UInt32 := payload.nat?.map UInt32.ofNat

def bytes? : Payload → Option Bytes
  | delimited bytes => some bytes
  | _ => none

def text? (payload : Payload) : Option String := payload.bytes?.bind Bytes.toText?

end Payload

namespace Field

def key (number kind : Nat) : Bytes := varint (8 * number + kind)

def ofNat (number value : Nat) : Bytes :=
  if value = 0 then [] else key number 0 ++ varint value

/-- A number with a sign is sent as the 64 bits of its two's complement. -/
def ofInt64 (number : Nat) (value : Int64) : Bytes := ofNat number value.toUInt64.toNat

def ofInt32 (number : Nat) (value : Int32) : Bytes := ofInt64 number value.toInt64

def ofBool (number : Nat) (value : Bool) : Bytes := ofNat number (if value then 1 else 0)

/-- A message within a message is sent even if it is empty. -/
def ofMessage (number : Nat) (message : Bytes) : Bytes :=
  key number 2 ++ varint message.length ++ message

def ofBytes (number : Nat) (value : Bytes) : Bytes :=
  if value.isEmpty then [] else ofMessage number value

def ofText (number : Nat) (value : String) : Bytes := ofBytes number (Bytes.ofText value)

end Field

def readWith (default : μ) (update : μ → Nat → Payload → Option μ) (depth : Nat) (bytes : Bytes) :
    Option μ := do
  (← scan depth bytes).foldlM (fun message field => update message field.number field.payload)
    default

end WalletProxy.Protobuf
