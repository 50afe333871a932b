import WalletProxy.Text.Blank
import WalletProxy.Transaction.Basic
import WalletProxy.Unsigned

/-! Texts that read back as what they were written from: bytes in hexadecimal, which no trimming
shortens, and heights in decimal. Hexadecimal digits of either case read as the bytes that are
written in the same digits in lower case; nothing but pairs of such digits reads as bytes. -/
namespace WalletProxy

def Text.trimmed (text : String) : String := String.ofList (trim text.toList)

theorem Text.trimKeeps {text : List Char} (all : ∀ c ∈ text, isBlank c = false) :
    trim text = text := by
  have kept : ∀ chars : List Char, (∀ c ∈ chars, isBlank c = false) →
      chars.dropWhile isBlank = chars := by
    intro chars unblank
    cases chars with
    | nil => rfl
    | cons first rest =>
      exact List.dropWhile_cons_of_neg (Bool.eq_false_iff.mp (unblank first List.mem_cons_self))
  have backwards : ∀ c ∈ text.reverse, isBlank c = false := fun c member =>
    all c (List.mem_reverse.mp member)
  rw [trim, kept text all, kept text.reverse backwards, List.reverse_reverse]

theorem Bytes.ofTextInj {text other : String} (same : ofText text = ofText other) :
    text = other := by
  have data := Array.toList_inj.mp same
  exact String.toByteArray_inj.mp (ByteArray.ext data)

theorem Bytes.ofAsciiText {bytes : Bytes} (ascii : ∀ byte ∈ bytes, byte.toNat < 128) :
    ofText (String.ofList (bytes.map fun byte => Char.ofNat byte.toNat)) = bytes := by
  have one : ∀ byte ∈ bytes, String.utf8EncodeChar (Char.ofNat byte.toNat) = [byte] := by
    intro byte member
    have small := ascii byte member
    have valid : byte.toNat.isValidChar := Or.inl (by omega)
    have value : (Char.ofNat byte.toNat).val.toNat = byte.toNat := by
      rw [Char.ofNat, dif_pos valid]
      rfl
    have size : (Char.ofNat byte.toNat).utf8Size = 1 := by
      rw [Char.utf8Size_eq_one_iff, UInt32.le_iff_toNat_le, value]
      exact Nat.le_of_lt_succ small
    rw [String.utf8EncodeChar_eq_singleton size, ← UInt32.ofNat_toNat (x := (Char.ofNat _).val),
      value]
    simp
  simp only [ofText, String.toUTF8_eq_toByteArray, String.toByteArray_ofList, List.utf8Encode,
    List.toList_data_toByteArray]
  clear ascii
  induction bytes with
  | nil => rfl
  | cons byte rest ih =>
    obtain ⟨head, tail⟩ := List.forall_mem_cons.mp one
    rw [List.map_cons, List.flatMap_cons, head, ih tail]
    rfl

theorem Bytes.ofAsciiChars {text : String} (ascii : ∀ c ∈ text.toList, c.toNat < 128) :
    ofText text = text.toList.map fun c => UInt8.ofNat c.toNat := by
  have small : ∀ c ∈ text.toList, (UInt8.ofNat c.toNat).toNat = c.toNat := by
    intro c member
    have bound := ascii c member
    rw [UInt8.toNat_ofNat']
    omega
  have bytes : ∀ byte ∈ text.toList.map (fun c => UInt8.ofNat c.toNat), byte.toNat < 128 := by
    intro byte member
    obtain ⟨c, inside, rfl⟩ := List.mem_map.mp member
    rw [small c inside]
    exact ascii c inside
  have back : (text.toList.map fun c => UInt8.ofNat c.toNat).map
      (fun byte => Char.ofNat byte.toNat) = text.toList := by
    rw [List.map_map]
    refine (List.map_congr_left (g := id) fun c member => ?_).trans (List.map_id _)
    rw [Function.comp_apply, small c member, Char.ofNat_toNat]
    rfl
  have written := Bytes.ofAsciiText bytes
  rwa [back, String.ofList_toList] at written

namespace Hex

theorem digitValue : ∀ value : Fin 16,
    value? (digit (UInt8.ofNat value)) = some (UInt8.ofNat value) := by decide

theorem digitAscii : ∀ value : Fin 16, (digit (UInt8.ofNat value)).toNat < 128 := by decide

theorem highHalf (byte : UInt8) : ∃ value : Fin 16, byte / 16 = UInt8.ofNat value := by
  have bound := byte.toNat_lt
  refine ⟨⟨byte.toNat / 16, by omega⟩, ?_⟩
  rw [← UInt8.toNat_inj, UInt8.toNat_div, UInt8.toNat_ofNat_of_lt']
  · rfl
  · show byte.toNat / 16 < 2 ^ 8
    omega

theorem lowHalf (byte : UInt8) : ∃ value : Fin 16, byte % 16 = UInt8.ofNat value := by
  refine ⟨⟨byte.toNat % 16, by omega⟩, ?_⟩
  rw [← UInt8.toNat_inj, UInt8.toNat_mod, UInt8.toNat_ofNat_of_lt']
  · rfl
  · show byte.toNat % 16 < 2 ^ 8
    omega

theorem joinedHalves (byte : UInt8) : 16 * (byte / 16) + byte % 16 = byte := by
  have bound := byte.toNat_lt
  rw [← UInt8.toNat_inj, UInt8.toNat_add, UInt8.toNat_mul, UInt8.toNat_div, UInt8.toNat_mod]
  simp only [UInt8.reduceToNat]
  omega

theorem decodeDigits (index : Nat) (done bytes : Bytes) :
    decodeFrom index done (encodeBytes bytes) = .ok (done.reverse ++ bytes) := by
  induction bytes generalizing index done with
  | nil => simp [encodeBytes, decodeFrom]
  | cons byte rest ih =>
    obtain ⟨high, isHigh⟩ := highHalf byte
    obtain ⟨low, isLow⟩ := lowHalf byte
    have highValue : value? (digit (byte / 16)) = some (byte / 16) := by
      rw [isHigh, digitValue]
    have lowValue : value? (digit (byte % 16)) = some (byte % 16) := by
      rw [isLow, digitValue]
    have unfolded : encodeBytes (byte :: rest) =
        digit (byte / 16) :: digit (byte % 16) :: encodeBytes rest := rfl
    rw [unfolded, decodeFrom, highValue, lowValue]
    simp only [ih, joinedHalves, List.reverse_cons, List.append_assoc, List.singleton_append]

theorem encodedLength (bytes : Bytes) : (encodeBytes bytes).length = 2 * bytes.length := by
  induction bytes with
  | nil => rfl
  | cons byte rest ih =>
    have unfolded : encodeBytes (byte :: rest) = digits byte ++ encodeBytes rest := rfl
    rw [unfolded, List.length_append, ih, List.length_cons]
    have two : (digits byte).length = 2 := rfl
    omega

theorem encodedAll (holds : UInt8 → Prop)
    (each : ∀ value : Fin 16, holds (digit (UInt8.ofNat value))) (bytes : Bytes) :
    ∀ byte ∈ encodeBytes bytes, holds byte := by
  intro byte member
  obtain ⟨source, _, inside⟩ := List.mem_flatMap.mp member
  simp only [digits, List.mem_cons, List.not_mem_nil, or_false] at inside
  rcases inside with rfl | rfl
  · obtain ⟨value, same⟩ := highHalf source
    rw [same]
    exact each value
  · obtain ⟨value, same⟩ := lowHalf source
    rw [same]
    exact each value

theorem encodedAscii (bytes : Bytes) : ∀ byte ∈ encodeBytes bytes, byte.toNat < 128 :=
  encodedAll _ digitAscii bytes

theorem digitUnblank : ∀ value : Fin 16,
    Text.isBlank (Char.ofNat (digit (UInt8.ofNat value)).toNat) = false := by decide

theorem encodedUnblank (bytes : Bytes) :
    ∀ c ∈ (encode bytes).toList, Text.isBlank c = false := by
  intro c member
  rw [encode, String.toList_ofList] at member
  obtain ⟨byte, written, rfl⟩ := List.mem_map.mp member
  exact encodedAll (fun byte => Text.isBlank (Char.ofNat byte.toNat) = false) digitUnblank bytes
    byte written

theorem decodeEncoded (bytes : Bytes) : decode (encode bytes) = .ok bytes := by
  have even : ¬ (encodeBytes bytes).length % 2 = 1 := by
    rw [encodedLength]
    omega
  rw [decode, encode, Bytes.ofAsciiText (encodedAscii bytes), decodeBytes, if_neg even,
    decodeDigits]
  rfl

theorem encodedInj {bytes other : Bytes} (same : encodeBytes bytes = encodeBytes other) :
    bytes = other := by
  have decoded := decodeDigits 0 [] bytes
  rw [same, decodeDigits] at decoded
  exact (Except.ok.inj decoded).symm

theorem digitsInj {byte other : UInt8} (same : digits byte = digits other) : byte = other :=
  List.singleton_inj.mp (encodedInj (congrArg (· ++ []) same))

/- Two digits stand for each byte, so that nothing begins halfway through one. -/
theorem encodedPrefix {start bytes : Bytes} :
    encodeBytes start <+: encodeBytes bytes ↔ start <+: bytes := by
  induction start generalizing bytes with
  | nil => exact iff_of_true List.nil_prefix List.nil_prefix
  | cons first rest ih =>
    cases bytes with
    | nil =>
      refine iff_of_false (fun h => ?_) (by simp)
      cases List.prefix_nil.mp h
    | cons byte others =>
      have unfolded : ∀ byte rest, encodeBytes (byte :: rest) =
          digit (byte / 16) :: digit (byte % 16) :: encodeBytes rest := fun _ _ => rfl
      rw [unfolded, unfolded, List.cons_prefix_cons, List.cons_prefix_cons, List.cons_prefix_cons, ih]
      constructor
      · intro h
        obtain ⟨high, low, tail⟩ := h
        have same : digits first = digits byte := by rw [digits, high, low]; rfl
        exact ⟨digitsInj same, tail⟩
      · intro h
        obtain ⟨rfl, tail⟩ := h
        exact ⟨rfl, rfl, tail⟩

theorem digitAsciiChar {c : Char} (digit : isDigit c = true) : c.toNat < 128 := by
  simp only [isDigit, Char.isDigit, Bool.or_eq_true, Bool.and_eq_true, decide_eq_true_eq,
    Char.le_def, UInt32.le_iff_toNat_le, UInt32.reduceToNat, Char.reduceVal] at digit
  have value : c.toNat = c.val.toNat := rfl
  omega

theorem digitReadCode : ∀ code : Fin 128, isDigit (Char.ofNat code) = true →
    ∃ value : Fin 16, value? (UInt8.ofNat code) = some (UInt8.ofNat value) ∧
      (Char.ofNat code).toLower = Char.ofNat (digit (UInt8.ofNat value)).toNat := by
  decide +kernel

theorem digitRead {c : Char} (digit : isDigit c = true) :
    ∃ value : Fin 16, value? (UInt8.ofNat c.toNat) = some (UInt8.ofNat value) ∧
      c.toLower = Char.ofNat (Hex.digit (UInt8.ofNat value)).toNat := by
  have known := digitReadCode ⟨c.toNat, digitAsciiChar digit⟩
  rw [Char.ofNat_toNat] at known
  exact known digit

theorem joinedDigits : ∀ high low : Fin 16,
    digits (16 * UInt8.ofNat high + UInt8.ofNat low) =
      [digit (UInt8.ofNat high), digit (UInt8.ofNat low)] := by decide

theorem decodePairs {chars : List Char} (all : ∀ c ∈ chars, isDigit c = true) {count : Nat}
    (even : chars.length = 2 * count) :
    ∃ bytes, bytes.length = count ∧
      (∀ index done, decodeFrom index done (chars.map fun c => UInt8.ofNat c.toNat) =
        .ok (done.reverse ++ bytes)) ∧
      chars.map Char.toLower = (encodeBytes bytes).map fun byte => Char.ofNat byte.toNat := by
  induction count generalizing chars with
  | zero =>
    cases List.length_eq_zero_iff.mp even
    exact ⟨[], rfl, fun index done => by simp [decodeFrom], rfl⟩
  | succ count ih =>
    obtain ⟨first, second, rest, rfl⟩ : ∃ first second rest,
        chars = first :: second :: rest := by
      match chars, even with
      | first :: second :: rest, _ => exact ⟨first, second, rest, rfl⟩
    obtain ⟨firstDigit, others⟩ := List.forall_mem_cons.mp all
    obtain ⟨secondDigit, others⟩ := List.forall_mem_cons.mp others
    obtain ⟨high, readHigh, lowerHigh⟩ := digitRead firstDigit
    obtain ⟨low, readLow, lowerLow⟩ := digitRead secondDigit
    have fewer : rest.length = 2 * count := by
      simp only [List.length_cons] at even
      omega
    obtain ⟨bytes, size, decodes, lowers⟩ := ih others fewer
    refine ⟨(16 * UInt8.ofNat high + UInt8.ofNat low) :: bytes, congrArg (· + 1) size, ?_, ?_⟩
    · intro index done
      rw [List.map_cons, List.map_cons, decodeFrom, readHigh, readLow]
      simp only [decodes, List.reverse_cons, List.append_assoc, List.singleton_append]
    · have unfolded : encodeBytes ((16 * UInt8.ofNat high + UInt8.ofNat low) :: bytes) =
          digits (16 * UInt8.ofNat high + UInt8.ofNat low) ++ encodeBytes bytes := rfl
      rw [unfolded, joinedDigits, List.map_append, ← lowers, List.map_cons, List.map_cons,
        lowerHigh, lowerLow]
      rfl

theorem decodeText {text : String} (all : ∀ c ∈ text.toList, isDigit c = true) {count : Nat}
    (even : text.length = 2 * count) :
    ∃ bytes, bytes.length = count ∧ decode text = .ok bytes ∧
      String.ofList (text.toList.map Char.toLower) = encode bytes := by
  have size : text.toList.length = 2 * count := even
  obtain ⟨bytes, counted, decodes, lowers⟩ := decodePairs all size
  have written := Bytes.ofAsciiChars fun c member => digitAsciiChar (all c member)
  refine ⟨bytes, counted, ?_, congrArg String.ofList lowers⟩
  rw [decode, written, decodeBytes, if_neg (by rw [List.length_map, size]; omega), decodes]
  rfl

def Valid (text : String) : Prop :=
  text.length % 2 = 0 ∧ ∀ c ∈ text.toList, isDigit c = true

instance (text : String) : Decidable (Valid text) :=
  decidable_of_iff (text.length % 2 = 0 ∧ text.toList.all isDigit = true)
    (and_congr_right' List.all_eq_true)

theorem readDigitCode : ∀ code : Fin 256, (value? (UInt8.ofNat code)).isSome = true →
    code.val < 128 ∧ isDigit (Char.ofNat code) = true := by decide +kernel

theorem readDigit {byte : UInt8} (read : (value? byte).isSome = true) :
    byte.toNat < 128 ∧ isDigit (Char.ofNat byte.toNat) = true := by
  have known := readDigitCode ⟨byte.toNat, byte.toNat_lt⟩
  rw [UInt8.ofNat_toNat] at known
  exact known read

theorem decodedDigits {bytes result : Bytes} {index : Nat} {done : Bytes}
    (decoded : decodeFrom index done bytes = .ok result) (even : bytes.length % 2 = 0) :
    ∀ byte ∈ bytes, (value? byte).isSome = true := by
  induction index, done, bytes using decodeFrom.induct with
  | case1 index done high low rest unread => simp [decodeFrom, unread] at decoded
  | case2 index done high low rest h unread read => simp [decodeFrom, unread, read] at decoded
  | case3 index done high low rest h l readLow readHigh ih =>
    simp only [decodeFrom, readLow, readHigh] at decoded
    simp only [List.length_cons] at even
    have others := ih decoded (by omega)
    refine List.forall_mem_cons.mpr ⟨by rw [readHigh]; rfl, ?_⟩
    exact List.forall_mem_cons.mpr ⟨by rw [readLow]; rfl, others⟩
  | case4 left index done short =>
    match left, short, even with
    | [], _, _ => exact List.forall_mem_nil _
    | high :: low :: rest, short, _ => exact (short high low rest rfl).elim

theorem decodesIff {text : String} : (∃ bytes, decode text = .ok bytes) ↔ Valid text := by
  constructor
  · rintro ⟨result, decoded⟩
    rw [decode, decodeBytes] at decoded
    split at decoded
    · cases decoded
    · rename_i even
      have read := decodedDigits decoded (by omega)
      have ascii : ∀ byte ∈ Bytes.ofText text, byte.toNat < 128 :=
        fun byte member => (readDigit (read byte member)).1
      have shown := Bytes.ofTextInj (Bytes.ofAsciiText ascii)
      constructor
      · rw [← shown, String.length_ofList, List.length_map]
        omega
      · rw [← shown, String.toList_ofList]
        intro c member
        obtain ⟨byte, inside, rfl⟩ := List.mem_map.mp member
        exact (readDigit (read byte inside)).2
  · rintro ⟨even, digits⟩
    have count : text.length = 2 * (text.length / 2) := by omega
    obtain ⟨bytes, _, decoded, _⟩ := decodeText digits count
    exact ⟨bytes, decoded⟩

end Hex

namespace Bytes32

theorem shownText (word : Bytes32) :
    Bytes.ofText word.display = Hex.encodeBytes word.val.reverse :=
  Bytes.ofAsciiText (Hex.encodedAscii _)

theorem shownTextInj {word other : Bytes32}
    (same : Bytes.ofText word.display = Bytes.ofText other.display) : word = other := by
  rw [shownText, shownText] at same
  exact Subtype.ext (List.reverse_inj.mp (Hex.encodedInj same))

theorem displayInj {word other : Bytes32} (same : word.display = other.display) : word = other :=
  shownTextInj (congrArg Bytes.ofText same)

theorem displayDigits (word : Bytes32) :
    word.display.length = 64 ∧ ∀ c ∈ word.display.toList, Hex.isDigit c = true := by
  have shown : word.display.toList =
      (Hex.encodeBytes word.val.reverse).map fun byte => Char.ofNat byte.toNat :=
    String.toList_ofList
  have digit : ∀ value : Fin 16,
      Hex.isDigit (Char.ofNat (Hex.digit (UInt8.ofNat value)).toNat) = true := by decide
  constructor
  · rw [← String.length_toList, shown, List.length_map, Hex.encodedLength, List.length_reverse,
      word.property]
  · intro c member
    rw [shown] at member
    obtain ⟨byte, written, rfl⟩ := List.mem_map.mp member
    exact Hex.encodedAll (fun byte => Hex.isDigit (Char.ofNat byte.toNat) = true) digit _ byte written

end Bytes32

namespace Unsigned

theorem unsignedDigits {digits : List Char} (all : ∀ c ∈ digits, c.isDigit = true) :
    unsigned digits = digits := by
  cases digits with
  | nil => rfl
  | cons first rest =>
    have digit := all first List.mem_cons_self
    unfold unsigned
    split
    · rename_i same
      cases same
      contradiction
    · rfl

theorem readDecimal {greatest value : Nat} (bounded : value ≤ greatest) :
    read? greatest (toString value) = some value := by
  have all : ∀ c ∈ Nat.toDigits 10 value, c.isDigit = true := fun c member =>
    Nat.isDigit_of_mem_toDigits (by decide) (by decide) member
  have number : digitsValue (Nat.toDigits 10 value) = value := by
    have written := Nat.ofDigitChars_ten_toDigits (n := value)
    rwa [Nat.ofDigitChars_eq_foldl] at written
  have form : ¬ ((Nat.toDigits 10 value).isEmpty ∨ !(Nat.toDigits 10 value).all Char.isDigit) := by
    simp only [List.isEmpty_iff, Nat.toDigits_ne_nil, false_or, Bool.not_eq_true',
      Bool.not_eq_false]
    exact List.all_eq_true.mpr all
  simp only [read?, Nat.toString_eq_repr, Nat.toList_repr, unsignedDigits all, if_neg form, number,
    if_pos bounded]

theorem readBounded {greatest value : Nat} {text : String}
    (read : read? greatest text = some value) : value ≤ greatest := by
  simp only [read?] at read
  split at read
  · contradiction
  · split at read
    · rename_i bounded
      cases read
      exact bounded
    · contradiction

theorem readBeyond {greatest value : Nat} (beyond : greatest < value) :
    read? greatest (toString value) = none := by
  have own := readDecimal (Nat.le_refl value)
  simp only [read?] at own ⊢
  split at own
  · contradiction
  · rename_i form
    rw [if_neg form]
    split at own
    · rw [Option.some.inj own]
      exact if_neg (Nat.not_le.mpr beyond)
    · contradiction

end Unsigned

end WalletProxy
