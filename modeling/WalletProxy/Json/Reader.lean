import WalletProxy.Json.Token
import WalletProxy.Json.Basic

/-! JSON values from their text. The tokens are taken one by one, with the lists and objects that
are still open on a stack, of at most `maxDepth`. -/
namespace WalletProxy.Json

def maxDepth : Nat := 127

/-- A list or object that is not closed yet, its latest part first; or one that waits for the
value of a member. -/
inductive Frame where
  | list (items : List Json)
  | object (members : List (String × Json))
  | member (members : List (String × Json)) (name : String)

inductive Next where
  | value
  | itemOrEnd
  | nameOrEnd
  | name
  | colon
  | commaOrEnd
  deriving DecidableEq, Repr

structure Reading where
  next : Next
  frames : List Frame
  result : Option Json

namespace Reading

def start : Reading := ⟨.value, [], none⟩

def complete (value : Json) : List Frame → Option Reading
  | [] => some ⟨.commaOrEnd, [], some value⟩
  | .list items :: frames => some ⟨.commaOrEnd, .list (value :: items) :: frames, none⟩
  | .member members name :: frames =>
      some ⟨.commaOrEnd, .object ((name, value) :: members) :: frames, none⟩
  | .object _ :: _ => none

def openFrame (frames : List Frame) (frame : Frame) (next : Next) : Option Reading :=
  if frames.length < maxDepth then some ⟨next, frame :: frames, none⟩ else none

def value (frames : List Frame) : Token → Option Reading
  | .text value => complete (.text value) frames
  | .number value => complete (.number value) frames
  | .null => complete .null frames
  | .bool value => complete (.bool value) frames
  | .openList => openFrame frames (.list []) .itemOrEnd
  | .openObject => openFrame frames (.object []) .nameOrEnd
  | _ => none

def step (object : List (String × Json) → Json) (reading : Reading) (token : Token) :
    Option Reading :=
  match reading.result, reading.next, token, reading.frames with
  | some _, _, _, _ => none
  | none, .itemOrEnd, .closeList, .list items :: frames => complete (.list items.reverse) frames
  | none, .commaOrEnd, .closeList, .list items :: frames => complete (.list items.reverse) frames
  | none, .nameOrEnd, .closeObject, .object members :: frames =>
      complete (object members.reverse) frames
  | none, .commaOrEnd, .closeObject, .object members :: frames =>
      complete (object members.reverse) frames
  | none, .commaOrEnd, .comma, .list items :: frames => some ⟨.value, .list items :: frames, none⟩
  | none, .commaOrEnd, .comma, .object members :: frames =>
      some ⟨.name, .object members :: frames, none⟩
  | none, .nameOrEnd, .text name, .object members :: frames =>
      some ⟨.colon, .member members name :: frames, none⟩
  | none, .name, .text name, .object members :: frames =>
      some ⟨.colon, .member members name :: frames, none⟩
  | none, .colon, .colon, frames => some ⟨.value, frames, none⟩
  | none, .value, token, frames => value frames token
  | none, .itemOrEnd, token, frames => value frames token
  | none, _, _, _ => none

end Reading

def readWith (object : List (String × Json) → Json) (text : String) : Option Json := do
  let tokens ← Token.scan text.toList
  let last ← tokens.foldlM (Reading.step object) .start
  last.result

def read (text : String) : Option Json := readWith ofMembers text

def readMembers (text : String) : Option Json := readWith object text

end WalletProxy.Json
