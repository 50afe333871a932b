import WalletProxy.Proofs.ReaderExact

/-! The size prefix and what follows it: each size up to the limit is read from its shortest form
alone, and a run of bytes or items is read from its size and its parts. -/
namespace WalletProxy.CompactSize
open Reader

variable {α : Type}

theorem wideOk {width least size : Nat} {input rest : Bytes} :
    wide width least input = .ok (size, rest) ↔
      least ≤ size ∧ size < 256 ^ width ∧ input = Bytes.ofNat width size ++ rest := by
  simp only [wide, bindOk, numberOk, requireOk, pureOk, decide_eq_true_eq]
  constructor
  · intro h
    obtain ⟨n, middle, ⟨small, rfl⟩, _, _, ⟨large, rfl⟩, rfl, rfl⟩ := h
    exact ⟨large, small, rfl⟩
  · intro h
    obtain ⟨large, small, rfl⟩ := h
    exact ⟨size, rest, ⟨small, rfl⟩, (), rest, ⟨large, rfl⟩, rfl, rfl⟩

theorem writeOneByte {size : Nat} (small : size ≤ 0xfc) : write size = [UInt8.ofNat size] := by
  rw [write, if_pos small]
  rfl

theorem writeThreeBytes {size : Nat} (large : 0xfd ≤ size) (small : size ≤ 0xffff) :
    write size = 0xfd :: Bytes.ofNat 2 size := by
  rw [write, if_neg (by omega), if_pos small]

theorem writeFiveBytes {size : Nat} (large : 0x10000 ≤ size) (small : size ≤ 0xffffffff) :
    write size = 0xfe :: Bytes.ofNat 4 size := by
  rw [write, if_neg (by omega), if_neg (by omega), if_pos small]

theorem writeNineBytes {size : Nat} (large : 0x100000000 ≤ size) :
    write size = 0xff :: Bytes.ofNat 8 size := by
  rw [write, if_neg (by omega), if_neg (by omega), if_neg (by omega)]

theorem writeNonempty (size : Nat) : write size ≠ [] := by
  unfold write
  split
  · simp [Bytes.ofNat]
  · split
    · simp
    · split <;> simp

theorem writeLength (size : Nat) :
    (write size).length =
      if size ≤ 0xfc then 1
      else if size ≤ 0xffff then 3
      else if size ≤ 0xffffffff then 5
      else 9 := by
  simp only [write, apply_ite List.length, List.length_cons, Bytes.lengthOfNat]

/- The prefix does not get shorter as the size grows, so that the length of both tells the size. -/
theorem prefixedLengthInj {size other : Nat}
    (same : (write size).length + size = (write other).length + other) : size = other := by
  rw [writeLength, writeLength] at same
  grind

theorem prefixedInj {value other : Bytes}
    (same : write value.length ++ value = write other.length ++ other) : value = other := by
  have lengths := congrArg List.length same
  rw [List.length_append, List.length_append] at lengths
  rw [prefixedLengthInj lengths] at same
  exact List.append_cancel_left same

theorem lastFlag {flag : UInt8} (one : ¬ flag < 0xfd) (three : flag ≠ 0xfd) (five : flag ≠ 0xfe) :
    flag = 0xff := by
  have bound := flag.toNat_lt
  have notThree : flag.toNat ≠ 0xfd := fun same => three (UInt8.toNat_inj.mp same)
  have notFive : flag.toNat ≠ 0xfe := fun same => five (UInt8.toNat_inj.mp same)
  rw [UInt8.lt_iff_toNat_lt] at one
  simp only [UInt8.reduceToNat] at one
  rw [← UInt8.toNat_inj]
  simp only [UInt8.reduceToNat]
  omega

/- Each branch of the reader tests a range that no shorter form covers, so the form that was read is
the one that is written. -/
theorem startingWithForm {flag : UInt8} {size : Nat} {input rest : Bytes}
    (ok : startingWith flag input = .ok (size, rest)) :
    size < 256 ^ 8 ∧ flag :: input = write size ++ rest := by
  unfold startingWith at ok
  split at ok
  · rename_i one
    obtain ⟨rfl, rfl⟩ := pureOk.mp ok
    have small := UInt8.lt_iff_toNat_lt.mp one
    simp only [UInt8.reduceToNat] at small
    rw [writeOneByte (by omega), UInt8.ofNat_toNat]
    exact ⟨by omega, rfl⟩
  · split at ok
    · rename_i three
      obtain ⟨large, small, rfl⟩ := wideOk.mp ok
      rw [writeThreeBytes large (by omega), three]
      exact ⟨by omega, rfl⟩
    · split at ok
      · rename_i five
        obtain ⟨large, small, rfl⟩ := wideOk.mp ok
        rw [writeFiveBytes large (by omega), five]
        exact ⟨by omega, rfl⟩
      · rename_i one three five
        obtain ⟨large, small, rfl⟩ := wideOk.mp ok
        rw [writeNineBytes large, lastFlag one three five]
        exact ⟨small, rfl⟩

theorem startingWithWritten {flag : UInt8} {size : Nat} {input rest : Bytes}
    (bounded : size < 256 ^ 8) (same : flag :: input = write size ++ rest) :
    startingWith flag input = .ok (size, rest) := by
  unfold startingWith
  by_cases one : size ≤ 0xfc
  · rw [writeOneByte one] at same
    obtain ⟨rfl, rfl⟩ := List.cons.inj same
    have value : (UInt8.ofNat size).toNat = size := UInt8.toNat_ofNat_of_lt' (by
      show size < 2 ^ 8
      omega)
    have flag : UInt8.ofNat size < 0xfd := by
      rw [UInt8.lt_iff_toNat_lt, value]
      simp only [UInt8.reduceToNat]
      omega
    rw [if_pos flag, pureOk, value]
    exact ⟨rfl, rfl⟩
  · by_cases three : size ≤ 0xffff
    · rw [writeThreeBytes (by omega) three] at same
      obtain ⟨rfl, rfl⟩ := List.cons.inj same
      rw [if_neg (by decide), if_pos rfl, wideOk]
      exact ⟨by omega, by omega, rfl⟩
    · by_cases five : size ≤ 0xffffffff
      · rw [writeFiveBytes (by omega) five] at same
        obtain ⟨rfl, rfl⟩ := List.cons.inj same
        rw [if_neg (by decide), if_neg (by decide), if_pos rfl, wideOk]
        exact ⟨by omega, by omega, rfl⟩
      · rw [writeNineBytes (by omega)] at same
        obtain ⟨rfl, rfl⟩ := List.cons.inj same
        rw [if_neg (by decide), if_neg (by decide), if_neg (by decide), wideOk]
        exact ⟨by omega, bounded, rfl⟩

theorem startingWithOk {flag : UInt8} {size : Nat} {input rest : Bytes} :
    startingWith flag input = .ok (size, rest) ↔
      size < 256 ^ 8 ∧ flag :: input = write size ++ rest := by
  constructor
  · intro ok
    exact startingWithForm ok
  · intro h
    obtain ⟨bounded, same⟩ := h
    exact startingWithWritten bounded same

theorem readOk {size : Nat} {input rest : Bytes} :
    read input = .ok (size, rest) ↔ size ≤ limit ∧ input = write size ++ rest := by
  simp only [read, bindOk, byteOk, startingWithOk, requireOk, pureOk, decide_eq_true_eq]
  constructor
  · intro h
    obtain ⟨flag, bytes, rfl, n, middle, ⟨_, same⟩, _, _, ⟨bounded, rfl⟩, rfl, rfl⟩ := h
    exact ⟨bounded, same⟩
  · intro h
    obtain ⟨bounded, rfl⟩ := h
    obtain ⟨flag, bytes, form⟩ := List.exists_cons_of_ne_nil (writeNonempty size)
    have wide : size < 256 ^ 8 := by
      unfold limit at bounded
      omega
    exact ⟨flag, bytes ++ rest, by rw [form]; rfl, size, rest, ⟨wide, by rw [form]; rfl⟩,
      (), rest, ⟨bounded, rfl⟩, rfl, rfl⟩

theorem wideShort {width least size : Nat} (short : size % 256 ^ width < least) (rest : Bytes) :
    wide width least (Bytes.ofNat width size ++ rest) = .error .nonCanonicalSize := by
  have small : size % 256 ^ width < 256 ^ width := Nat.mod_lt _ (Nat.pow_pos (by decide))
  have taken : number width (Bytes.ofNat width size ++ rest) = .ok (size % 256 ^ width, rest) :=
    numberOk.mpr ⟨small, by rw [Bytes.ofNatMod]⟩
  unfold wide
  rw [afterOk taken]
  exact afterError (requireError (decide_eq_false (Nat.not_le.mpr short)) rest)

theorem readTooLarge {size : Nat} (above : limit < size) (bounded : size < 256 ^ 8) (rest : Bytes) :
    read (write size ++ rest) = .error .sizeTooLarge := by
  obtain ⟨flag, bytes, form⟩ := List.exists_cons_of_ne_nil (writeNonempty size)
  have started : startingWith flag (bytes ++ rest) = .ok (size, rest) :=
    startingWithWritten bounded (by rw [form]; rfl)
  rw [form, List.cons_append, read, afterOk (byteOk.mpr rfl), afterOk started]
  exact afterError (requireError (decide_eq_false (Nat.not_le.mpr above)) rest)

/- What is written of a size of more than 64 bits is the form of a smaller one. It is refused
either as too large or because that one has a shorter form. -/
theorem readRefuses {size : Nat} (above : limit < size) (rest : Bytes) :
    ∃ fault, read (write size ++ rest) = .error fault ∧ fault.kind = .invalidInput := by
  rcases Nat.lt_or_ge size (256 ^ 8) with bounded | wider
  · exact ⟨.sizeTooLarge, readTooLarge above bounded rest, rfl⟩
  · have form : write size = 0xff :: Bytes.ofNat 8 size := writeNineBytes (by omega)
    rcases Nat.lt_or_ge (size % 256 ^ 8) 0x100000000 with short | large
    · refine ⟨.nonCanonicalSize, ?_, rfl⟩
      rw [form, List.cons_append, read, afterOk (byteOk.mpr rfl)]
      exact afterError (wideShort short rest)
    · have same : write size = write (size % 256 ^ 8) := by
        rw [form, writeNineBytes large, Bytes.ofNatMod]
      have small : size % 256 ^ 8 < 256 ^ 8 := Nat.mod_lt _ (by decide)
      rw [same]
      exact ⟨.sizeTooLarge, readTooLarge (by unfold limit; omega) small rest, rfl⟩

theorem bytesOk {input value rest : Bytes} :
    bytes input = .ok (value, rest) ↔
      value.length ≤ limit ∧ input = write value.length ++ value ++ rest := by
  simp only [bytes, bindOk, readOk, takeOk]
  constructor
  · intro h
    obtain ⟨size, middle, ⟨bounded, rfl⟩, rfl, rfl⟩ := h
    exact ⟨bounded, by rw [List.append_assoc]⟩
  · intro h
    obtain ⟨bounded, rfl⟩ := h
    exact ⟨value.length, value ++ rest, ⟨bounded, by rw [List.append_assoc]⟩, rfl, rfl⟩

theorem vectorOk {item : Reader α} {fits : α → Prop} {written : α → Bytes}
    (exact : Exact item fits written) {values : List α} {input rest : Bytes} :
    vector item input = .ok (values, rest) ↔
      values.length ≤ limit ∧ (∀ value ∈ values, fits value) ∧
        input = write values.length ++ values.flatMap written ++ rest := by
  simp only [vector, bindOk, readOk, manyOk exact]
  constructor
  · intro h
    obtain ⟨size, middle, ⟨bounded, rfl⟩, rfl, all, rfl⟩ := h
    exact ⟨bounded, all, by rw [List.append_assoc]⟩
  · intro h
    obtain ⟨bounded, all, rfl⟩ := h
    exact ⟨values.length, values.flatMap written ++ rest, ⟨bounded, by rw [List.append_assoc]⟩,
      rfl, all, rfl⟩

theorem sizesExact (size : UInt64) (rest : Bytes) :
    read (write size.toNat ++ rest) =
        (if size.toNat ≤ limit then .ok (size.toNat, rest) else .error .sizeTooLarge) ∧
      (∀ input value after, read input = .ok (value, after) ↔
        value ≤ limit ∧ input = write value ++ after) ∧
      ∀ input value front after, consumed read input = .ok ((value, front), after) ↔
        value ≤ limit ∧ front = write value ∧ input = front ++ after := by
  refine ⟨?_, fun _ _ _ => readOk, fun _ _ _ _ => consumedExact fun _ _ _ => readOk⟩
  by_cases small : size.toNat ≤ limit
  · rw [if_pos small]
    exact readOk.mpr ⟨small, rfl⟩
  · rw [if_neg small]
    exact readTooLarge (Nat.not_le.mp small) size.toNat_lt rest

end WalletProxy.CompactSize
