import WalletProxy.Proofs.ChainRun
import WalletProxy.Proofs.DeclaredHeight
import WalletProxy.Proofs.TextRoundTrip

/-! Filler blocks. One is made for every height and nonce. Its first transaction pushes three bytes
of the height, so that the height it declares is the one asked for up to 24 bits and no further.
Its header depends on height and nonce through two characters; numbers that no character has are
all shown as the replacement character, and blocks made for such numbers cannot be told apart by
their headers. -/
namespace WalletProxy
open Reader
open Unsigned (Overflow greatest64)

namespace Filler

def pushScript (height : Nat) : Bytes :=
  0x03 :: (Bytes.ofNat 4 height ++ coinbaseBack.take 37)

theorem coinbaseRead (height : Nat) : ∃ body, TxBody.read (coinbase height) = .ok (body, []) ∧
    body.format = .sapling ∧ body.inputs.map TxInput.script = [pushScript height] :=
  ⟨_, rfl, rfl, rfl⟩

theorem pushedLow (height : Nat) :
    Coinbase.pushed? (pushScript height) = some (height % 2 ^ 24) := by
  have taken : Coinbase.pushed? (pushScript height) = some (Bytes.toNat (Bytes.ofNat 3 height)) :=
    rfl
  rw [taken, Bytes.toNatOfNat, Nat.pow_mul 2 8 3]

def made (nonce : Int32) (height : Nat) : Block where
  header := header nonce height
  height := height % 2 ^ 24
  transactions := [⟨doubleSha256 (coinbase height), coinbase height⟩]

theorem coinbaseParsed (height : Nat) :
    BlockTx.ofBytes (coinbase height) = .ok ⟨doubleSha256 (coinbase height), coinbase height⟩ := by
  obtain ⟨body, taken, layout, _⟩ := coinbaseRead height
  refine BlockTx.ofBytesOk.mpr ⟨rfl, ⟨body, body.id (coinbase height)⟩, ?_, ?_⟩
  · simp only [Transaction.read, bindOk, Prod.exists, consumedOk, pureOk]
    exact ⟨body, coinbase height, [], ⟨(List.append_nil _).symm, taken⟩, rfl, rfl⟩
  · rw [TxBody.id, layout]

theorem coinbaseHeight (height : Nat) :
    Coinbase.height (coinbase height) = .ok (height % 2 ^ 24) := by
  obtain ⟨body, taken, _, scripts⟩ := coinbaseRead height
  obtain ⟨left, first⟩ := TxBody.scriptOfFirst taken
  have low : height % 2 ^ 24 < 2 ^ 24 := Nat.mod_lt _ (by decide)
  have usual : height % 2 ^ 24 ≠ Coinbase.firstBlockPush := by
    unfold Coinbase.firstBlockPush
    omega
  rw [← List.head?_map, scripts] at first
  simp only [Coinbase.height, first, List.head?_cons, Coinbase.scriptHeight, pushedLow,
    if_neg usual]

theorem blockMade (nonce : Int32) (height : Nat) :
    Filler.block nonce height = .ok (made nonce height) := by
  have assembled : Block.assemble (header nonce height)
      [⟨doubleSha256 (coinbase height), coinbase height⟩] = .ok (made nonce height) :=
    Block.assembleOk.mpr ⟨rfl, rfl, _, rfl, coinbaseHeight height⟩
  simp only [Filler.block, Results.bindOk, Results.mapErrorOk]
  exact ⟨_, coinbaseParsed height, assembled⟩

section
variable {start count : Nat} (overflow : Overflow) (fits : start + count ≤ greatest64)
  (nonce : Int32)

theorem eachMade (heights : List Nat) :
    heights.mapM (Filler.block nonce) = .ok (heights.map (made nonce)) := by
  have each : Filler.block nonce = fun height => pure (made nonce height) :=
    funext (blockMade nonce)
  rw [each, List.mapM_pure]
  rfl

include fits in
theorem blocksMade :
    blocks overflow start nonce count = some (.ok ((List.range' start count).map (made nonce))) := by
  rw [blocks, heights, Overflow.in64Fits fits, Option.map_some, Option.map_some, eachMade,
    Nat.add_sub_cancel_left]

end

theorem blocksDeclare (overflow : Overflow) (start count : Nat) (nonce : Int32) :
    (start + count ≤ greatest64 →
      ∃ built, blocks overflow start nonce count = some (.ok built) ∧ built.length = count ∧
        ∀ index block, built[index]? = some block →
          Block.ofBytes block.write = .ok block ∧ block.height = (start + index) % 2 ^ 24 ∧
            (block.height = start + index ↔ start + index < 2 ^ 24)) ∧
    (blocks overflow start nonce count = none ↔ overflow = .ends ∧ greatest64 < start + count) := by
  constructor
  · intro fits
    have ok := blocksMade overflow fits nonce
    refine ⟨_, ok, ?_, ?_⟩
    · rw [List.length_map, List.length_range']
    · intro index block found
      have good := blocksWellFormed ok block (List.mem_of_getElem? found)
      rw [List.getElem?_map, Option.map_eq_some_iff] at found
      obtain ⟨height, position, same⟩ := found
      obtain ⟨_, own⟩ := List.getElem?_eq_some_iff.mp position
      rw [List.getElem_range', Nat.one_mul] at own
      have declared : block.height = (start + index) % 2 ^ 24 := by
        rw [← same, own]
        rfl
      refine ⟨Block.ofBytesWrite good, declared, ?_⟩
      rw [declared]
      constructor
      · intro own
        rw [← own]
        exact Nat.mod_lt _ (by decide)
      · intro small
        exact Nat.mod_eq_of_lt small
  · rw [← Overflow.in64None]
    simp only [blocks, heights, Option.map_eq_none_iff]

theorem wideHeightLost :
    ∃ block, blocks .ends (2 ^ 24) 0 1 = some (.ok [block]) ∧ block.height ≠ 2 ^ 24 := by
  have lost : (made 0 (2 ^ 24)).height ≠ 2 ^ 24 := by decide
  exact ⟨made 0 (2 ^ 24), blocksMade .ends (by decide) 0, lost⟩

/-- Numbers that are shown as the replacement character: all that are no character's, and its
own. -/
def Replaced (value : Int) : Prop :=
  value < 0 ∨ 0xd800 ≤ value ∧ value ≤ 0xdfff ∨ 0x10ffff < value ∨ value = 0xfffd

def Alike (value other : Int) : Prop := value = other ∨ Replaced value ∧ Replaced other

theorem shownReplaced {value : Int} (replaced : Replaced value) :
    codePoint value = Char.ofNat 0xfffd := by
  unfold codePoint
  split
  · rename_i valid
    unfold Replaced at replaced
    unfold Nat.isValidChar at valid
    have own : value.toNat = 0xfffd := by omega
    rw [own]
  · rfl

theorem shownOwn {value : Int} (own : ¬ Replaced value) :
    ((codePoint value).toNat : Int) = value := by
  unfold Replaced at own
  have valid : value.toNat.isValidChar := by
    unfold Nat.isValidChar
    omega
  have shown : codePoint value = Char.ofNat value.toNat := if_pos ⟨by omega, valid⟩
  have number : (Char.ofNat value.toNat).toNat = value.toNat := by
    rw [Char.ofNat, dif_pos valid]
    rfl
  rw [shown, number]
  omega

theorem shownApart {value other : Int} (own : ¬ Replaced value) (replaced : Replaced other) :
    codePoint value ≠ codePoint other := by
  intro same
  have number := shownOwn own
  rw [same, shownReplaced replaced] at number
  exact own (Or.inr (Or.inr (Or.inr number.symm)))

theorem codePointSame {value other : Int} :
    codePoint value = codePoint other ↔ Alike value other := by
  constructor
  · intro same
    by_cases first : Replaced value
    · by_cases second : Replaced other
      · exact Or.inr ⟨first, second⟩
      · exact absurd same.symm (shownApart second first)
    · by_cases second : Replaced other
      · exact absurd same (shownApart first second)
      · left
        rw [← shownOwn first, same, shownOwn second]
  · intro alike
    rcases alike with rfl | ⟨first, second⟩
    · rfl
    · rw [shownReplaced first, shownReplaced second]

def rootText (nonce : Int32) (height : Nat) : Bytes :=
  Bytes.ofText (String.ofList [codePoint nonce.toInt, '#', codePoint height])

theorem rootTextSame {nonce other : Int32} {height level : Nat} :
    rootText nonce height = rootText other level ↔
      Alike nonce.toInt other.toInt ∧ Alike height level := by
  rw [← codePointSame, ← codePointSame]
  constructor
  · intro same
    have chars := String.ofList_inj.mp (Bytes.ofTextInj same)
    simpa using chars
  · intro h
    rw [rootText, h.1, h.2]
    rfl

def Collide (hash : Bytes → Bytes32) (first second : Bytes) : Prop :=
  first ≠ second ∧ hash first = hash second

theorem hashSame {hash : Bytes → Bytes32} {first second : Bytes} :
    hash first = hash second ↔ first = second ∨ Collide hash first second := by
  constructor
  · intro same
    by_cases equal : first = second
    · exact Or.inl equal
    · exact Or.inr ⟨equal, same⟩
  · intro h
    rcases h with rfl | ⟨_, same⟩
    · rfl
    · exact same

theorem headerSame {nonce other : Int32} {height level : Nat} :
    header nonce height = header other level ↔ merkleRoot nonce height = merkleRoot other level := by
  constructor
  · intro same
    exact congrArg Header.merkleRoot same
  · intro same
    rw [header, same]
    rfl

theorem headersApart (nonce other : Int32) (height level : Nat) :
    ∃ block second, Filler.block nonce height = .ok block ∧ Filler.block other level = .ok second ∧
      (∀ overflow, (height < greatest64 → blocks overflow height nonce 1 = some (.ok [block])) ∧
        (level < greatest64 → blocks overflow level other 1 = some (.ok [second]))) ∧
      (block.header = second.header ↔ block.header.merkleRoot = second.header.merkleRoot) ∧
      (block.header = second.header ↔
        Alike nonce.toInt other.toInt ∧ Alike height level ∨
          Collide sha256 (rootText nonce height) (rootText other level)) ∧
      (block.hash = second.hash ↔
        block.header = second.header ∨
          Collide doubleSha256 block.header.write second.header.write) := by
  have bounded : ∀ nonce height, (header nonce height).solution.length ≤ CompactSize.limit := by
    intro nonce height
    have size : (header nonce height).solution.length = solutionSize := List.length_replicate
    rw [size]
    decide
  refine ⟨made nonce height, made other level, blockMade nonce height, blockMade other level,
    fun overflow => ⟨fun low => blocksMade overflow low nonce,
      fun low => blocksMade overflow low other⟩, headerSame, ?_, ?_⟩
  · calc (made nonce height).header = (made other level).header
        ↔ sha256 (rootText nonce height) = sha256 (rootText other level) := headerSame
      _ ↔ _ := by rw [hashSame, rootTextSame]
  · have written : (header nonce height).write = (header other level).write ↔
        header nonce height = header other level := by
      constructor
      · exact Header.writeInj (bounded nonce height) (bounded other level)
      · intro same
        rw [same]
    calc (made nonce height).hash = (made other level).hash
        ↔ (header nonce height).write = (header other level).write ∨
          Collide doubleSha256 (header nonce height).write (header other level).write := hashSame
      _ ↔ _ := by rw [written]; rfl

theorem highHeightsAlike : ∃ block second,
    blocks .ends 0x110000 0 2 = some (.ok [block, second]) ∧
    block.height ≠ second.height ∧ block.header = second.header ∧ block.hash = second.hash := by
  have alike : Alike (0x110000 : Nat) (0x110001 : Nat) :=
    Or.inr ⟨Or.inr (Or.inr (Or.inl (by decide))), Or.inr (Or.inr (Or.inl (by decide)))⟩
  have text : rootText 0 0x110000 = rootText 0 0x110001 := rootTextSame.mpr ⟨Or.inl rfl, alike⟩
  have same : header 0 0x110000 = header 0 0x110001 := headerSame.mpr (congrArg sha256 text)
  have apart : (made 0 0x110000).height ≠ (made 0 0x110001).height := by decide
  exact ⟨made 0 0x110000, made 0 0x110001, blocksMade .ends (by decide) 0, apart, same,
    congrArg Header.hash same⟩

end Filler

end WalletProxy
