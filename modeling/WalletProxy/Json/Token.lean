import WalletProxy.Json.Number

/-! The tokens of JSON text: marks, quoted texts, and bare words, which are numbers and the three
names. The text is read one character at a time. -/
namespace WalletProxy.Json

inductive Token where
  | openList
  | closeList
  | openObject
  | closeObject
  | colon
  | comma
  | text (value : String)
  | number (value : JsonNumber)
  | null
  | bool (value : Bool)
  deriving DecidableEq, Repr

namespace Token

/-- What the characters so far leave open. Texts and words stand here with the latest character
first; `high` is the first half of a surrogate pair whose second half must follow. -/
inductive Open where
  | nothing
  | word (chars : List Char)
  | quote (chars : List Char)
  | escape (chars : List Char) (high : Option Nat)
  | code (chars : List Char) (high : Option Nat) (digits : Nat) (value : Nat)
  | half (chars : List Char) (high : Nat)
  deriving DecidableEq, Repr

structure Scan where
  state : Open
  found : List Token
  deriving DecidableEq, Repr

def isBlank (c : Char) : Bool := c = ' ' || c = '\n' || c = '\t' || c = '\r'

def isWordChar (c : Char) : Bool := c.isAlphanum || c = '+' || c = '-' || c = '.'

def mark? : Char → Option Token
  | '[' => some openList
  | ']' => some closeList
  | '\x7b' => some openObject
  | '\x7d' => some closeObject
  | ':' => some colon
  | ',' => some comma
  | _ => none

def ofWord (chars : List Char) : Option Token :=
  if chars = ['n', 'u', 'l', 'l'] then some null
  else if chars = ['t', 'r', 'u', 'e'] then some (bool true)
  else if chars = ['f', 'a', 'l', 's', 'e'] then some (bool false)
  else (JsonNumber.read chars).map number

def hexValue? (c : Char) : Option Nat :=
  if c.isDigit then some (c.toNat - 48)
  else if 'a' ≤ c ∧ c ≤ 'f' then some (c.toNat - 87)
  else if 'A' ≤ c ∧ c ≤ 'F' then some (c.toNat - 55)
  else none

def escaped? : Char → Option Char
  | '"' => some '"'
  | '\\' => some '\\'
  | '/' => some '/'
  | 'b' => some (Char.ofNat 8)
  | 'f' => some (Char.ofNat 12)
  | 'n' => some '\n'
  | 'r' => some '\r'
  | 't' => some '\t'
  | _ => none

def ofUnit (chars : List Char) (high : Option Nat) (unit : Nat) : Option Open :=
  match high with
  | some first =>
      if 0xdc00 ≤ unit ∧ unit < 0xe000 then
        some (.quote (Char.ofNat (0x10000 + (first - 0xd800) * 0x400 + (unit - 0xdc00)) :: chars))
      else none
  | none =>
      if 0xd800 ≤ unit ∧ unit < 0xdc00 then some (.half chars unit)
      else if 0xdc00 ≤ unit ∧ unit < 0xe000 then none
      else some (.quote (Char.ofNat unit :: chars))

def between (found : List Token) (c : Char) : Option Scan :=
  if isBlank c then some ⟨.nothing, found⟩
  else if c = '"' then some ⟨.quote [], found⟩
  else if isWordChar c then some ⟨.word [c], found⟩
  else (mark? c).map fun token => ⟨.nothing, token :: found⟩

def step (scan : Scan) (c : Char) : Option Scan :=
  match scan.state with
  | .nothing => between scan.found c
  | .word chars =>
      if isWordChar c then some ⟨.word (c :: chars), scan.found⟩
      else do between ((← ofWord chars.reverse) :: scan.found) c
  | .quote chars =>
      if c = '"' then some ⟨.nothing, text (String.ofList chars.reverse) :: scan.found⟩
      else if c = '\\' then some ⟨.escape chars none, scan.found⟩
      else if c.toNat < 32 then none
      else some ⟨.quote (c :: chars), scan.found⟩
  | .escape chars high =>
      if c = 'u' then some ⟨.code chars high 0 0, scan.found⟩
      else if high.isSome then none
      else (escaped? c).map fun c => ⟨.quote (c :: chars), scan.found⟩
  | .code chars high digits value => do
      let value := 16 * value + (← hexValue? c)
      if digits = 3 then return ⟨← ofUnit chars high value, scan.found⟩
      else return ⟨.code chars high (digits + 1) value, scan.found⟩
  | .half chars high => if c = '\\' then some ⟨.escape chars (some high), scan.found⟩ else none

def scan (text : List Char) : Option (List Token) := do
  let last ← text.foldlM step ⟨.nothing, []⟩
  match last.state with
  | .nothing => some last.found.reverse
  | .word chars => return ((← ofWord chars.reverse) :: last.found).reverse
  | _ => none

end Token

end WalletProxy.Json
