import WalletProxy.Bytes

/-! Which transactions a wallet still needs, when it tells beginnings of the ids that it already
holds. A transaction is withheld only for a beginning that it shares with no other: a beginning of
several ids is ambiguous, and all of them are sent. -/
namespace WalletProxy.Withhold

/-- Byte order, a beginning before what it begins. -/
def upTo : Bytes → Bytes → Bool
  | [], _ => true
  | _ :: _, [] => false
  | a :: as, b :: bs => a < b || (a = b && upTo as bs)

/-- Whether one byte string is smaller than another, and no beginning of it. -/
def precedes : Bytes → Bytes → Bool
  | a :: as, b :: bs => a < b || (a = b && precedes as bs)
  | _, _ => false

def sortBy (key : α → Bytes) (items : List α) : List α :=
  items.mergeSort fun x y => upTo (key x) (key y)

def skipTo (id : Bytes) : List (Bytes × Nat) → List (Bytes × Nat)
  | [] => []
  | held :: rest => if precedes held.1 id then skipTo id rest else held :: rest

/-- One pass over ids and held beginnings, both in order: for each id the number of the beginning
that it starts with. -/
def matched (key : α → Bytes) : List (Bytes × Nat) → List α → List (α × Option Nat)
  | _, [] => []
  | held, item :: items =>
      let held := skipTo (key item) held
      let entry := match held with
        | [] => none
        | (start, number) :: _ => if start.isPrefixOf (key item) then some number else none
      (item, entry) :: matched key held items

def unheld (key : α → Bytes) (items : List α) (held : List Bytes) : List α :=
  let sorted := (sortBy id held).zipIdx
  let found := matched key sorted (sortBy key items)
  let isLone (number : Nat) : Bool := (found.map (·.2)).count (some number) = 1
  (found.filter fun (_, entry) => !entry.any isLone).map (·.1)

def unheldTexts (items held : List String) : List String :=
  unheld Bytes.ofText items (held.map Bytes.ofText)

end WalletProxy.Withhold
