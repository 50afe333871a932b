import Mathlib.Data.List.Forall2
import Mathlib.Data.List.TakeWhile
import WalletProxy.Json.Basic

/-! The integers of JSON text. A bare word is read as an integer exactly if it is the decimal form
of one of 64 bits, with a sign or without, and it is that integer; every other number is a fraction.
A reply takes an integer as it is, or not at all where it is outside the range of its field. -/
namespace WalletProxy

namespace JsonNumber

theorem digitBounds {c : Char} (digit : c.isDigit = true) : 48 ≤ c.toNat ∧ c.toNat ≤ 57 := by
  simpa [Char.isDigit, UInt32.le_iff_toNat_le] using digit

theorem digitWritten {c : Char} (digit : c.isDigit = true) :
    Nat.toDigits 10 (c.toNat - '0'.toNat) = [c] := by
  obtain ⟨low, high⟩ := digitBounds digit
  have zero : '0'.toNat = 48 := rfl
  have small : c.toNat - '0'.toNat < 10 := by omega
  have same : (c.toNat - '0'.toNat).digitChar = c := by
    apply Char.toNat_inj.mp
    rw [Nat.toNat_digitChar_of_lt_ten small]
    omega
  rw [Nat.toDigits_of_lt_base small, same]

theorem digitsAfter {digits : List Char} (all : ∀ c ∈ digits, c.isDigit = true) {before : Nat}
    (positive : 0 < before) :
    Nat.toDigits 10 (digits.foldl (fun n c => 10 * n + (c.toNat - '0'.toNat)) before) =
      Nat.toDigits 10 before ++ digits := by
  induction digits generalizing before with
  | nil => exact (List.append_nil _).symm
  | cons c rest ih =>
    obtain ⟨digit, others⟩ := List.forall_mem_cons.mp all
    obtain ⟨low, high⟩ := digitBounds digit
    have zero : '0'.toNat = 48 := rfl
    have small : c.toNat - '0'.toNat < 10 := by omega
    rw [List.foldl_cons, ih others (by omega),
      ← Nat.toDigits_append_toDigits (by decide) positive small, digitWritten digit,
      List.append_assoc]
    rfl

structure Plain (digits : List Char) : Prop where
  all : ∀ c ∈ digits, c.isDigit = true
  nonempty : digits ≠ []
  lead : ¬(digits.head? = some '0' ∧ digits ≠ ['0'])

theorem plainWritten {digits : List Char} (plain : Plain digits) :
    Nat.toDigits 10 (digitsValue digits) = digits := by
  cases digits with
  | nil => exact absurd rfl plain.nonempty
  | cons c rest =>
    obtain ⟨digit, others⟩ := List.forall_mem_cons.mp plain.all
    obtain ⟨low, high⟩ := digitBounds digit
    have zero : '0'.toNat = 48 := rfl
    have first : 10 * 0 + (c.toNat - '0'.toNat) = c.toNat - '0'.toNat := by omega
    unfold digitsValue
    rw [List.foldl_cons, first]
    by_cases same : c = '0'
    · subst same
      have alone : rest = [] := by simpa using plain.lead
      subst alone
      rfl
    · have other : c.toNat ≠ 48 := fun value => same (Char.toNat_inj.mp value)
      rw [digitsAfter others (by omega), digitWritten digit]
      rfl

theorem writtenValue (value : Nat) : digitsValue (Nat.toDigits 10 value) = value := by
  have written := Nat.ofDigitChars_ten_toDigits (n := value)
  rwa [Nat.ofDigitChars_eq_foldl] at written

theorem writtenLead {value : Nat} (lead : (Nat.toDigits 10 value).head? = some '0') :
    value = 0 := by
  induction value using Nat.strongRecOn with
  | ind value ih =>
    rcases Nat.lt_or_ge value 10 with small | large
    · rw [Nat.toDigits_of_lt_base small] at lead
      have same := congrArg Char.toNat (Option.some.inj lead)
      rw [Nat.toNat_digitChar_of_lt_ten small] at same
      have zero : '0'.toNat = 48 := rfl
      omega
    · obtain ⟨first, others, form⟩ :=
        List.exists_cons_of_ne_nil (Nat.toDigits_ne_nil (b := 10) (n := value / 10))
      have shorter : (Nat.toDigits 10 (value / 10)).head? = some '0' := by
        rw [Nat.toDigits_of_base_le (by decide) large, form] at lead
        rw [form]
        exact lead
      have none := ih (value / 10) (by omega) shorter
      omega

theorem writtenPlain (value : Nat) : Plain (Nat.toDigits 10 value) where
  all _ member := Nat.isDigit_of_mem_toDigits (by decide) (by decide) member
  nonempty := Nat.toDigits_ne_nil
  lead := by
    rintro ⟨zero, others⟩
    cases writtenLead zero
    contradiction

theorem digitsWhole {text digits : List Char} :
    digits? text = some (digits, []) ↔
      digits = text ∧ text ≠ [] ∧ ∀ c ∈ text, c.isDigit = true := by
  unfold digits?
  constructor
  · intro taken
    split at taken
    · contradiction
    · rename_i found
      obtain ⟨rfl, rest⟩ := Prod.mk.inj (Option.some.inj taken)
      have all := List.dropWhile_eq_nil_iff.mp rest
      have same := List.takeWhile_eq_self_iff.mpr all
      rw [same] at found
      exact ⟨same, by simpa using found, all⟩
  · rintro ⟨rfl, nonempty, all⟩
    rw [List.takeWhile_eq_self_iff.mpr all, List.dropWhile_eq_nil_iff.mpr all]
    split
    · contradiction
    · rfl

theorem shownInt (value : Int) :
    (toString value).toList =
      if value < 0 then '-' :: Nat.toDigits 10 value.natAbs else Nat.toDigits 10 value.natAbs := by
  cases value with
  | ofNat size => exact Nat.toList_repr
  | negSucc size =>
    have sign : (toString (Int.negSucc size)).toList = '-' :: (Nat.repr (size + 1)).toList := by
      show ("-" ++ Nat.repr (size + 1)).toList = _
      rw [String.toList_append]
      rfl
    rw [sign, Nat.toList_repr, if_pos (Int.negSucc_lt_zero size)]
    rfl

theorem signApart (word : List Char) {text : List Char} (negative : Bool) (plain : Plain text) :
    (match word with
      | '-' :: rest => (true, rest)
      | _ => (false, word)) = (negative, text) ↔ word = if negative then '-' :: text else text := by
  split
  · cases negative with
    | false =>
      constructor
      · intro same
        cases same
      · rintro rfl
        have sign : '-'.isDigit = true := plain.all '-' List.mem_cons_self
        contradiction
    | true => simp
  · rename_i other
    cases negative with
    | false => simp
    | true =>
      constructor
      · intro same
        cases same
      · intro same
        exact absurd same (other text)

theorem integerTaken {fits : Prop} [Decidable fits] {number value : Int} {bits : Option UInt64} :
    (if fits then some (int number) else bits.map fraction) = some (int value) ↔
      fits ∧ number = value := by
  split
  · simp [*]
  · simp [*]

theorem readInt {word : List Char} {value : Int} :
    read word = some (.int value) ↔
      word = (toString value).toList ∧ Int64.minValue.toInt ≤ value ∧ value < UInt64.size := by
  have least : Int64.minValue.toInt = -Nat.pow 2 63 := rfl
  have natural : 0 < Nat.pow 2 63 := by decide
  unfold read
  split
  rename_i negative text apart
  simp only [Option.bind_eq_bind, Option.bind_eq_some_iff, Option.ite_none_left_eq_some,
    integerTaken]
  constructor
  · rintro ⟨⟨whole, _⟩, taken, lead, _, _, _, _, ⟨rfl, range⟩, rfl⟩
    obtain ⟨rfl, nonempty, all⟩ := digitsWhole.mp taken
    have plain : Plain whole := ⟨all, nonempty, lead⟩
    obtain rfl := (signApart word negative plain).mp apart
    cases negative with
    | false =>
      simp only [Bool.false_eq_true, if_false] at range ⊢
      rw [shownInt, if_neg (by omega), Int.natAbs_natCast, plainWritten plain]
      exact ⟨rfl, by omega, by omega⟩
    | true =>
      simp only [if_true] at range ⊢
      rw [shownInt, if_pos (by omega), Int.natAbs_neg, Int.natAbs_natCast, plainWritten plain]
      exact ⟨rfl, by omega, by omega⟩
  · rintro ⟨rfl, low, high⟩
    have plain := writtenPlain value.natAbs
    have sign := (signApart (toString value).toList (decide (value < 0)) plain).mpr (by
      simp only [shownInt, decide_eq_true_eq])
    obtain ⟨rfl, rfl⟩ := Prod.mk.inj (apart.symm.trans sign)
    refine ⟨_, digitsWhole.mpr ⟨rfl, plain.nonempty, plain.all⟩, plain.lead, ([], []), rfl, 0, rfl,
      ⟨rfl, ?_⟩, ?_⟩
    · simp only [writtenValue, decide_eq_true_eq]
      split <;> omega
    · simp only [writtenValue, decide_eq_true_eq]
      split <;> omega

end JsonNumber

namespace Json

theorem textOk {json : Json} {value : String} : json.text? = some value ↔ json = .text value := by
  cases json <;> simp [text?]

theorem intOk {json : Json} {value : Int} : json.int? = some value ↔ json = .int value := by
  unfold int? Json.int
  split
  · simp
  · rename_i other
    constructor
    · intro found
      cases found
    · intro same
      exact absurd same (other value)

theorem intInOk {low high value : Int} {json : Json} :
    json.intIn? low high = some value ↔ json = .int value ∧ low ≤ value ∧ value ≤ high := by
  simp only [intIn?, Option.filter_eq_some_iff, intOk, Bool.and_eq_true, decide_eq_true_eq]

theorem nat64Ok {json : Json} {value : Nat} :
    json.nat64? = some value ↔ json = .nat value ∧ value < UInt64.size := by
  simp only [nat64?, Option.map_eq_some_iff, intInOk, Json.nat]
  constructor
  · rintro ⟨whole, ⟨rfl, natural, small⟩, rfl⟩
    exact ⟨by rw [Int.toNat_of_nonneg natural], by omega⟩
  · rintro ⟨rfl, small⟩
    exact ⟨value, ⟨rfl, by omega, by omega⟩, Int.toNat_natCast value⟩

theorem eachRead {α : Type} {item? : Json → Option α} {items : List Json} {values : List α} :
    items.mapM item? = some values ↔
      List.Forall₂ (fun item value => item? item = some value) items values := by
  induction items generalizing values with
  | nil => simp [eq_comm]
  | cons item rest ih =>
    simp only [List.mapM_cons, Option.bind_eq_bind, Option.bind_eq_some_iff, ih,
      List.forall₂_cons_left_iff, Option.pure_def, Option.some.injEq]
    constructor
    · rintro ⟨value, own, others, later, rfl⟩
      exact ⟨value, others, own, later, rfl⟩
    · rintro ⟨value, others, own, later, rfl⟩
      exact ⟨value, own, others, later, rfl⟩

theorem listOfOk {α : Type} {item? : Json → Option α} {json : Json} {values : List α} :
    listOf? item? json = some values ↔ ∃ items, json = .list items ∧
      List.Forall₂ (fun item value => item? item = some value) items values := by
  simp only [listOf?, Option.bind_eq_some_iff, eachRead]
  refine exists_congr fun items => and_congr_left fun _ => ?_
  cases json <;> simp [list?]

end Json

end WalletProxy
