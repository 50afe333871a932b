import Mathlib.Algebra.Group.Nat.Defs
import WalletProxy.CompactSize
import WalletProxy.Proofs.Results

/-! What the readers take: for each one the exact inputs on which it succeeds, with the value it
gives and the rest it leaves. No reader looks at the bytes behind those that it takes. -/
namespace WalletProxy

namespace Bytes

theorem toNatBound (bytes : Bytes) : toNat bytes < 256 ^ bytes.length := by
  induction bytes with
  | nil => simp [toNat]
  | cons b rest ih =>
    have hb := b.toNat_lt
    simp only [toNat, List.length_cons, Nat.pow_succ]
    omega

theorem toNatOfNat (width value : Nat) : toNat (ofNat width value) = value % 256 ^ width := by
  induction width generalizing value with
  | zero => simp [ofNat, toNat, Nat.mod_one]
  | succ width ih =>
    have head : (UInt8.ofNat value).toNat = value % 256 := UInt8.toNat_ofNat'
    rw [ofNat, toNat, ih, head, Nat.pow_succ, Nat.mul_comm (256 ^ width) 256, Nat.mod_mul]

theorem ofNatToNat (bytes : Bytes) : ofNat bytes.length (toNat bytes) = bytes := by
  induction bytes with
  | nil => rfl
  | cons b rest ih =>
    have hb := b.toNat_lt
    have low : (b.toNat + 256 * toNat rest) % 256 = b.toNat := by omega
    have high : (b.toNat + 256 * toNat rest) / 256 = toNat rest := by omega
    have head : UInt8.ofNat (b.toNat + 256 * toNat rest) = b := by
      rw [← UInt8.toNat_inj]
      exact UInt8.toNat_ofNat'.trans low
    simp only [List.length_cons, toNat, ofNat, head, high, ih]

theorem ofNatMod (width value : Nat) : ofNat width (value % 256 ^ width) = ofNat width value := by
  have back := ofNatToNat (ofNat width value)
  rwa [lengthOfNat, toNatOfNat] at back

end Bytes

namespace Reader

variable {α β : Type}

def Exact (reader : Reader α) (fits : α → Prop) (write : α → Bytes) : Prop :=
  ∀ input value rest, reader input = .ok (value, rest) ↔ fits value ∧ input = write value ++ rest

class Sequential (reader : Reader α) : Prop where
  front {input value rest} : reader input = .ok (value, rest) →
    ∃ front, input = front ++ rest ∧ ∀ tail, reader (front ++ tail) = .ok (value, tail)

theorem pureOk {value other : α} {input rest : Bytes} :
    (pure value : Reader α) input = .ok (other, rest) ↔ other = value ∧ input = rest := by
  constructor
  · intro h
    cases h
    exact ⟨rfl, rfl⟩
  · intro h
    obtain ⟨rfl, rfl⟩ := h
    rfl

theorem throwOk {fault : ReadError} {value : α} {input rest : Bytes} :
    (throw fault : Reader α) input ≠ .ok (value, rest) := by
  intro h
  cases h

theorem bindOk {reader : Reader α} {next : α → Reader β} {input rest : Bytes} {value : β} :
    (reader >>= next) input = .ok (value, rest) ↔
      ∃ first middle, reader input = .ok (first, middle) ∧
        next first middle = .ok (value, rest) := by
  have unfolded : (reader >>= next) input =
      (reader input >>= fun taken => next taken.1 taken.2) := rfl
  rw [unfolded, Results.bindOk]
  constructor
  · intro h
    obtain ⟨⟨first, middle⟩, taken, ok⟩ := h
    exact ⟨first, middle, taken, ok⟩
  · intro h
    obtain ⟨first, middle, taken, ok⟩ := h
    exact ⟨(first, middle), taken, ok⟩

theorem afterOk {reader : Reader α} {next : α → Reader β} {input rest : Bytes} {value : α}
    (taken : reader input = .ok (value, rest)) : (reader >>= next) input = next value rest := by
  show (reader input >>= fun taken => next taken.1 taken.2) = next value rest
  rw [taken]
  rfl

theorem afterError {reader : Reader α} {next : α → Reader β} {input : Bytes} {fault : ReadError}
    (failed : reader input = .error fault) : (reader >>= next) input = .error fault := by
  show (reader input >>= fun taken => next taken.1 taken.2) = .error fault
  rw [failed]
  rfl

theorem requireError {condition : Bool} {fault : ReadError} (bad : condition = false)
    (input : Bytes) : require condition fault input = .error fault := by
  subst bad
  rfl

theorem requireOk {condition : Bool} {fault : ReadError} {input rest : Bytes} {value : Unit} :
    require condition fault input = .ok (value, rest) ↔ condition = true ∧ input = rest := by
  cases condition with
  | false =>
    constructor
    · intro h
      exact absurd h throwOk
    · intro h
      exact absurd h.1 (by decide)
  | true =>
    have same : require true fault = (pure () : Reader Unit) := rfl
    rw [same, pureOk]
    simp

theorem takeOk {count : Nat} {input value rest : Bytes} :
    take count input = .ok (value, rest) ↔ value.length = count ∧ input = value ++ rest := by
  have split : input.splitAt count = (input.take count, input.drop count) := by simp
  simp only [take, split]
  constructor
  · intro h
    split at h <;> try contradiction
    rename_i size
    cases h
    exact ⟨size, (List.take_append_drop count input).symm⟩
  · intro h
    obtain ⟨size, rfl⟩ := h
    have front : (value ++ rest).take count = value := List.take_left' size
    have back : (value ++ rest).drop count = rest := List.drop_left' size
    rw [front, back, if_pos size]

theorem bytes32Ok {input rest : Bytes} {value : Bytes32} :
    bytes32 input = .ok (value, rest) ↔ input = value.val ++ rest := by
  have split : input.splitAt 32 = (input.take 32, input.drop 32) := by simp
  simp only [bytes32, split]
  constructor
  · intro h
    split at h <;> try contradiction
    cases h
    exact (List.take_append_drop 32 input).symm
  · intro same
    subst same
    have front : (value.val ++ rest).take 32 = value.val := List.take_left' value.property
    have back : (value.val ++ rest).drop 32 = rest := List.drop_left' value.property
    simp only [front, back, value.property, dif_pos]

theorem numberOk {width : Nat} {input rest : Bytes} {value : Nat} :
    number width input = .ok (value, rest) ↔
      value < 256 ^ width ∧ input = Bytes.ofNat width value ++ rest := by
  simp only [number, bindOk, takeOk, pureOk]
  constructor
  · intro h
    obtain ⟨bytes, middle, ⟨rfl, rfl⟩, rfl, rfl⟩ := h
    exact ⟨Bytes.toNatBound bytes, by rw [Bytes.ofNatToNat]⟩
  · intro h
    obtain ⟨small, rfl⟩ := h
    refine ⟨Bytes.ofNat width value, rest, ⟨Bytes.lengthOfNat width value, rfl⟩, ?_, rfl⟩
    rw [Bytes.toNatOfNat, Nat.mod_eq_of_lt small]

theorem byteOk {input rest : Bytes} {value : UInt8} :
    byte input = .ok (value, rest) ↔ input = value :: rest := by
  simp only [byte, bindOk, numberOk, pureOk]
  constructor
  · intro h
    obtain ⟨n, middle, ⟨small, rfl⟩, rfl, rfl⟩ := h
    rfl
  · intro same
    subst same
    refine ⟨value.toNat, rest, ⟨value.toNat_lt, ?_⟩, ?_, rfl⟩
    · simp [Bytes.ofNat]
    · simp

theorem wordOk {input rest : Bytes} {value : UInt32} :
    word input = .ok (value, rest) ↔ input = Bytes.ofNat 4 value.toNat ++ rest := by
  simp only [word, bindOk, numberOk, pureOk]
  constructor
  · intro h
    obtain ⟨n, middle, ⟨small, rfl⟩, rfl, rfl⟩ := h
    have same : (UInt32.ofNat n).toNat = n := UInt32.toNat_ofNat_of_lt' small
    rw [same]
  · intro same
    subst same
    exact ⟨value.toNat, rest, ⟨value.toNat_lt, rfl⟩, by simp, rfl⟩

theorem manyAfterOk {item : Reader α} {fits : α → Prop} {write : α → Bytes}
    (exact : Exact item fits write) {count : Nat} {done values : List α} {input rest : Bytes} :
    manyAfter item count done input = .ok (values, rest) ↔
      ∃ found, values = done.reverse ++ found ∧ found.length = count ∧
        (∀ value ∈ found, fits value) ∧ input = found.flatMap write ++ rest := by
  -- The items so far are generalized: the recursion carries them, the latest first.
  induction count generalizing done input with
  | zero =>
    simp only [manyAfter, pureOk, List.length_eq_zero_iff]
    constructor
    · intro h
      obtain ⟨rfl, rfl⟩ := h
      exact ⟨[], by simp⟩
    · intro h
      obtain ⟨found, rfl, rfl, _, rfl⟩ := h
      simp
  | succ count ih =>
    simp only [manyAfter, bindOk, ih, exact _ _ _]
    constructor
    · intro h
      obtain ⟨first, middle, ⟨good, rfl⟩, found, rfl, rfl, all, rfl⟩ := h
      exact ⟨first :: found, by simp, rfl, by simpa using ⟨good, all⟩, by simp⟩
    · intro h
      obtain ⟨found, rfl, size, all, rfl⟩ := h
      cases found with
      | nil => simp at size
      | cons first found =>
        obtain ⟨good, all⟩ := List.forall_mem_cons.mp all
        exact ⟨first, _, ⟨good, by simp only [List.flatMap_cons, List.append_assoc]⟩, found,
          by simp, by simpa using size, all, rfl⟩

theorem manyOk {item : Reader α} {fits : α → Prop} {write : α → Bytes}
    (exact : Exact item fits write) {count : Nat} {values : List α} {input rest : Bytes} :
    many item count input = .ok (values, rest) ↔
      values.length = count ∧ (∀ value ∈ values, fits value) ∧
        input = values.flatMap write ++ rest := by
  simp [many, manyAfterOk exact]

theorem exactSequential {reader : Reader α} {fits : α → Prop} {write : α → Bytes}
    (exact : Exact reader fits write) : Sequential reader where
  front ok := by
    obtain ⟨good, rfl⟩ := (exact _ _ _).mp ok
    exact ⟨_, rfl, fun tail => (exact _ _ _).mpr ⟨good, rfl⟩⟩

instance (value : α) : Sequential (pure value : Reader α) where
  front ok := by
    obtain ⟨rfl, rfl⟩ := pureOk.mp ok
    exact ⟨[], rfl, fun tail => rfl⟩

instance (fault : ReadError) : Sequential (throw fault : Reader α) where
  front ok := absurd ok throwOk

instance (reader : Reader α) (next : α → Reader β) [Sequential reader]
    [∀ value, Sequential (next value)] : Sequential (reader >>= next) where
  front ok := by
    obtain ⟨head, middle, taken, after⟩ := bindOk.mp ok
    obtain ⟨front, rfl, again⟩ := Sequential.front taken
    obtain ⟨back, rfl, onward⟩ := Sequential.front after
    refine ⟨front ++ back, by rw [List.append_assoc], fun tail => bindOk.mpr ?_⟩
    exact ⟨head, back ++ tail, by rw [List.append_assoc]; exact again _, onward tail⟩

instance (condition : Prop) [Decidable condition] (yes no : Reader α) [Sequential yes]
    [Sequential no] : Sequential (if condition then yes else no) := by
  split <;> infer_instance

instance (condition : Bool) (fault : ReadError) : Sequential (require condition fault) := by
  unfold require
  infer_instance

instance (count : Nat) : Sequential (take count) := exactSequential fun _ _ _ => takeOk

instance : Sequential bytes32 where
  front ok := ⟨_, bytes32Ok.mp ok, fun _ => bytes32Ok.mpr rfl⟩

instance (width : Nat) : Sequential (number width) := by
  unfold number
  infer_instance

instance : Sequential byte := by
  unfold byte
  infer_instance

instance : Sequential word := by
  unfold word
  infer_instance

instance : Sequential signed := by
  unfold signed
  infer_instance

instance (item : Reader α) [Sequential item] (count : Nat) (done : List α) :
    Sequential (manyAfter item count done) := by
  induction count generalizing done with
  | zero =>
    unfold manyAfter
    infer_instance
  | succ count ih =>
    unfold manyAfter
    infer_instance

theorem consumedOk {reader : Reader α} [Sequential reader] {input front rest : Bytes} {value : α} :
    consumed reader input = .ok ((value, front), rest) ↔
      input = front ++ rest ∧ reader front = .ok (value, []) := by
  unfold consumed
  constructor
  · intro ok
    cases h : reader input with
    | error fault => simp [h] at ok
    | ok taken =>
      obtain ⟨other, remaining⟩ := taken
      obtain ⟨bytes, rfl, again⟩ := Sequential.front h
      simp only [h] at ok
      cases ok
      have alone := again []
      simp only [List.append_nil] at alone
      simp [alone]
  · intro h
    obtain ⟨rfl, alone⟩ := h
    obtain ⟨bytes, same, again⟩ := Sequential.front alone
    simp only [List.append_nil] at same
    subst same
    simp [again rest]

theorem consumedExact {reader : Reader α} {fits : α → Prop} {write : α → Bytes}
    (exact : Exact reader fits write) {input front rest : Bytes} {value : α} :
    consumed reader input = .ok ((value, front), rest) ↔
      fits value ∧ front = write value ∧ input = front ++ rest := by
  have := exactSequential exact
  rw [consumedOk, exact, List.append_nil]
  constructor
  · rintro ⟨same, good, written⟩
    exact ⟨good, written, same⟩
  · rintro ⟨good, written, same⟩
    exact ⟨same, good, written⟩

instance (reader : Reader α) [Sequential reader] : Sequential (consumed reader) where
  front ok := by
    obtain ⟨rfl, alone⟩ := consumedOk.mp ok
    exact ⟨_, rfl, fun tail => consumedOk.mpr ⟨rfl, alone⟩⟩

theorem wholeOk {reader : Reader α} {input : Bytes} {value : α} :
    whole reader input = .ok value ↔ reader input = .ok (value, []) := by
  unfold whole
  cases h : reader input with
  | error fault => simp
  | ok taken =>
    obtain ⟨other, rest⟩ := taken
    cases rest <;> simp

end Reader

end WalletProxy
