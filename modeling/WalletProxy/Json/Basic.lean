import WalletProxy.Json.Number

/-! JSON values. The members of an object stand in the order of their names, each name once, so
that equal objects are equal values. -/
namespace WalletProxy

inductive Json where
  | null
  | bool (value : Bool)
  | number (value : JsonNumber)
  | text (value : String)
  | list (items : List Json)
  | object (members : List (String × Json))
  deriving Repr

namespace Json

instance : Inhabited Json := ⟨null⟩

def int (value : Int) : Json := number (.int value)

def nat (value : Nat) : Json := int value

/-- Puts a member in its place; it replaces one of the same name. -/
def putMember (member : String × Json) : List (String × Json) → List (String × Json)
  | [] => [member]
  | first :: rest =>
      if member.1 < first.1 then member :: first :: rest
      else if member.1 = first.1 then member :: rest
      else first :: putMember member rest

def ofMembers (members : List (String × Json)) : Json :=
  object (members.foldl (fun done member => putMember member done) [])

mutual

/-- The value with the members of all its objects in order, the last one of each name. -/
def canonical : Json → Json
  | list items => list (canonicalItems items)
  | object members => ofMembers (canonicalMembers members)
  | json => json

def canonicalItems : List Json → List Json
  | [] => []
  | item :: rest => item.canonical :: canonicalItems rest

def canonicalMembers : List (String × Json) → List (String × Json)
  | [] => []
  | (name, value) :: rest => (name, value.canonical) :: canonicalMembers rest

end

def get? (name : String) : Json → Option Json
  | object members => (members.find? (·.1 = name)).map (·.2)
  | _ => none

def text? : Json → Option String
  | text value => some value
  | _ => none

def int? : Json → Option Int
  | number (.int value) => some value
  | _ => none

def intIn? (low high : Int) (json : Json) : Option Int :=
  json.int?.filter fun value => low ≤ value && value ≤ high

def int64? : Json → Option Int := intIn? Int64.minValue.toInt Int64.maxValue.toInt

def nat64? (json : Json) : Option Nat := (intIn? 0 (UInt64.size - 1) json).map Int.toNat

def nat32? (json : Json) : Option Nat := (intIn? 0 (UInt32.size - 1) json).map Int.toNat

def list? : Json → Option (List Json)
  | list items => some items
  | _ => none

def listOf? (item? : Json → Option α) (json : Json) : Option (List α) :=
  json.list?.bind (·.mapM item?)

end Json

end WalletProxy
