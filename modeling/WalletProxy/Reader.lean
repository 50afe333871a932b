import WalletProxy.Hex

/-! Readers of binary formats. A reader takes its value from the front of a byte string and leaves
the rest, or stops at the first fault; it never looks past what it takes. -/
namespace WalletProxy

inductive ReadError where
  | endOfInput
  | nonCanonicalSize
  | sizeTooLarge
  | unknownFormat
  | valueOutOfRange
  | valueBalanceOutOfRange
  | oldPublicValueOutOfRange
  | newPublicValueOutOfRange
  | invalidBranch (id : UInt32)
  | saplingCommitment
  | saplingKey
  | saplingAnchor
  | saplingNote
  | orchardCommitment
  | orchardNullifier
  | orchardKey
  | orchardNote
  | orchardIdentityKey
  | orchardEphemeralKey
  | orchardFlags
  | orchardAnchor
  | orchardProofLength (actual expected : Nat)
  | trailingBytes (count : Nat)
  | source (detail : String)
  deriving DecidableEq, Repr

namespace ReadError

inductive Kind where
  | endOfInput
  | invalidData
  | invalidInput
  | other
  deriving DecidableEq, Repr

def kind : ReadError → Kind
  | endOfInput => .endOfInput
  | nonCanonicalSize | sizeTooLarge | saplingCommitment | saplingAnchor | saplingNote
  | orchardCommitment | orchardNullifier | orchardKey | orchardNote | orchardFlags
  | orchardAnchor => .invalidInput
  | unknownFormat | valueOutOfRange | valueBalanceOutOfRange | oldPublicValueOutOfRange
  | newPublicValueOutOfRange | invalidBranch _ | saplingKey | orchardIdentityKey
  | orchardEphemeralKey | orchardProofLength _ _ | trailingBytes _ => .invalidData
  | source _ => .other

def branchDigits (id : UInt32) : String := Hex.encode (Bytes.ofNat 4 id.toNat).reverse

def message : ReadError → String
  | endOfInput => "failed to fill whole buffer"
  | nonCanonicalSize => "non-canonical CompactSize"
  | sizeTooLarge => "CompactSize too large"
  | unknownFormat => "Unknown transaction format"
  | valueOutOfRange => "value out of range"
  | valueBalanceOutOfRange => "valueBalance out of range"
  | oldPublicValueOutOfRange => "vpub_old out of range"
  | newPublicValueOutOfRange => "vpub_new out of range"
  | invalidBranch id => s!"invalid consensus branch id 0x{branchDigits id}"
  | saplingCommitment => "invalid cv"
  | saplingKey => "verification key is invalid"
  | saplingAnchor => "base value not a valid field element"
  | saplingNote => "cmu not in field"
  | orchardCommitment => "invalid Pallas point for value commitment"
  | orchardNullifier => "invalid Pallas point for nullifier"
  | orchardKey => "invalid verification key"
  | orchardNote => "invalid Pallas base for field cmx"
  | orchardIdentityKey => "an Orchard action with identity `rk` is not valid"
  | orchardEphemeralKey =>
      "an Orchard action's `epk` is not a valid non-identity Pallas point"
  | orchardFlags => "invalid Orchard flags"
  | orchardAnchor => "invalid Orchard anchor"
  | orchardProofLength actual expected =>
      s!"Orchard proof has non-canonical length {actual}; expected {expected} bytes"
  | trailingBytes count => s!"transaction serialization is too long by {count} bytes"
  | source detail => detail

end ReadError

abbrev Reader := StateT Bytes (Except ReadError)

namespace Reader

def take (count : Nat) : Reader Bytes := fun input =>
  let (front, rest) := input.splitAt count
  if front.length = count then .ok (front, rest) else .error .endOfInput

def require (condition : Bool) (fault : ReadError) : Reader Unit :=
  if condition then pure () else throw fault

def number (width : Nat) : Reader Nat := do return Bytes.toNat (← take width)

def byte : Reader UInt8 := do return UInt8.ofNat (← number 1)

def word : Reader UInt32 := do return UInt32.ofNat (← number 4)

def signed : Reader Int64 := do return (UInt64.ofNat (← number 8)).toInt64

def bytes32 : Reader Bytes32 := fun input =>
  let (front, rest) := input.splitAt 32
  if size : front.length = 32 then .ok (⟨front, size⟩, rest) else .error .endOfInput

def manyAfter (item : Reader α) : (count : Nat) → (done : List α) → Reader (List α)
  | 0, done => pure done.reverse
  | count + 1, done => do
      let value ← item
      manyAfter item count (value :: done)

def many (item : Reader α) (count : Nat) : Reader (List α) := manyAfter item count []

/-- A value together with the very bytes it was read from. -/
def consumed (reader : Reader α) : Reader (α × Bytes) := fun input =>
  match reader input with
  | .error fault => .error fault
  | .ok (value, rest) => .ok ((value, input.take (input.length - rest.length)), rest)

def whole (reader : Reader α) (input : Bytes) : Except ReadError α :=
  match reader input with
  | .error fault => .error fault
  | .ok (value, []) => .ok value
  | .ok (_, rest) => .error (.trailingBytes rest.length)

end Reader

end WalletProxy
