import WalletProxy.Proofs.SegmentSteps

/-! The ends of segments. A block declares its height in up to eight bytes, so the end of a segment
is at most one more than 64 bits hold, and it is that only behind a block at the greatest height. As
long as no block reaches that height every end is counted as it is. -/
namespace WalletProxy
open Unsigned (Overflow greatest64)

namespace Coinbase

theorem pushedBound {script : Bytes} {number : Nat} (pushed : pushed? script = some number) :
    number ≤ greatest64 := by
  have size : greatest64 + 1 = 256 ^ 8 := by decide
  cases script with
  | nil => contradiction
  | cons opcode rest =>
    simp only [pushed?] at pushed
    split at pushed
    · cases pushed
      exact Nat.zero_le _
    · split at pushed
      · cases pushed
        have small := opcode.toNat_lt
        omega
      · split at pushed
        · rename_i counted
          cases pushed
          have width : opcode.toNat ≤ 8 := UInt8.le_iff_toNat_le.mp counted.1
          have short : (rest.take opcode.toNat).length ≤ 8 := by
            rw [List.length_take]
            omega
          have bound := Bytes.toNatBound (rest.take opcode.toNat)
          have grows : 256 ^ (rest.take opcode.toNat).length ≤ 256 ^ 8 :=
            Nat.pow_le_pow_right (by decide) short
          omega
        · contradiction

theorem heightBound {tx : Bytes} {number : Nat} (declared : height tx = .ok number) :
    number ≤ greatest64 := by
  unfold height at declared
  split at declared
  · contradiction
  · contradiction
  · unfold scriptHeight at declared
    split at declared
    · contradiction
    · rename_i pushed
      have bound := pushedBound pushed
      cases declared
      split
      · exact Nat.zero_le _
      · exact bound

end Coinbase

theorem Block.heightBound {block : Block} (good : block.WellFormed) : block.height ≤ greatest64 := by
  obtain ⟨coinbase, rest, _, declared⟩ := wellFormedFirst good
  exact Coinbase.heightBound declared

namespace Segment

/-- What the blocks are placed in, one after another, up to an overflow. -/
def placing (overflow : Overflow) (segment : Segment) : List Block → List Segment
  | [] => []
  | block :: rest =>
      segment :: match segment.place overflow block with
        | .error _ => []
        | .ok next => next.placing overflow rest

def injecting (overflow : Overflow) (segment : Segment) : List (Nat × BlockTx) → List Segment
  | [] => []
  | (height, tx) :: rest =>
      segment :: match segment.inject overflow height tx with
        | .error _ => []
        | .ok next => next.injecting overflow rest

structure Within (most : Nat) (segment : Segment) : Prop where
  sound : segment.Sound
  heights : ∀ block ∈ segment.blocks, block.height ≤ most

theorem soundWithin {segment : Segment} (sound : segment.Sound) : segment.Within greatest64 :=
  ⟨sound, fun block member => Block.heightBound (sound.wellFormed block member)⟩

section
variable {overflow : Overflow} {most : Nat} {segment : Segment} (within : segment.Within most)
include within

theorem endWithin :
    segment.stop = 0 ∨ ∃ last, segment.blocks.getLast? = some last ∧
      last.height ≤ most ∧ segment.stop = last.height + 1 := by
  cases tip : segment.blocks.getLast? with
  | none =>
    have none : segment.blocks = [] := List.getLast?_eq_none_iff.mp tip
    left
    rw [stop, none, within.sound.start none]
    rfl
  | some last =>
    right
    have position := tip
    rw [List.getLast?_eq_getElem?] at position
    have inside := (List.getElem?_eq_some_iff.mp position).1
    have own := within.sound.heights _ last position
    refine ⟨last, rfl, within.heights last (List.mem_of_getLast? tip), ?_⟩
    unfold stop
    omega

theorem stopWithin : segment.stop ≤ most + 1 := by
  rcases endWithin within with none | ⟨last, _, low, ends⟩
  · omega
  · omega

theorem topWithin :
    most < segment.stop ↔ ∃ last, segment.blocks.getLast? = some last ∧ last.height = most := by
  rcases endWithin within with none | ⟨last, tip, low, ends⟩
  · constructor
    · omega
    · intro h
      obtain ⟨last, tip, _⟩ := h
      have inside := List.length_pos_of_mem (List.mem_of_getLast? tip)
      unfold stop at none
      omega
  · rw [tip]
    constructor
    · intro above
      exact ⟨last, rfl, by omega⟩
    · intro h
      obtain ⟨_, same, top⟩ := h
      cases same
      omega

theorem countedWithin (low : most < greatest64) : segment.stop64 overflow = .ok segment.stop := by
  have ends := stopWithin within
  exact stop64Fits (by omega)

theorem placeWithin {next : Segment} {block : Block} (good : block.WellFormed)
    (low : block.height ≤ most) (placed : segment.place overflow block = .ok next) :
    next.Within most := by
  refine ⟨placeSound within.sound good placed, ?_⟩
  obtain ⟨_, _, _, ⟨_, rfl⟩ | ⟨tip, _, _, rfl⟩⟩ := placeCases placed
  · exact List.forall_mem_singleton.mpr low
  · exact List.forall_mem_append.mpr ⟨fun old kept => within.heights old (List.mem_of_mem_take kept),
      List.forall_mem_singleton.mpr low⟩

theorem injectWithin {next : Segment} {height : Nat} {tx : BlockTx}
    (parsed : BlockTx.ofBytes tx.data = .ok tx)
    (ok : segment.inject overflow height tx = .ok next) : next.Within most := by
  refine ⟨injectSound within.sound parsed ok, fun other member => ?_⟩
  obtain ⟨_, _, _, block, fuller, found, appended, rfl⟩ := injectOk.mp ok
  obtain ⟨_, position⟩ := blockAt.mp found
  rcases List.mem_or_eq_of_mem_set member with old | rfl
  · exact within.heights other old
  · obtain ⟨_, rfl⟩ := Block.appendOk.mp appended
    exact within.heights block (List.mem_of_getElem? position)

theorem placingWithin (overflow : Overflow) {blocks : List Block}
    (good : ∀ block ∈ blocks, block.WellFormed) (low : ∀ block ∈ blocks, block.height ≤ most) :
    (∀ passed ∈ segment.placing overflow blocks, passed.Within most) ∧
      ∀ next, segment.placeAll overflow blocks = .ok next → next.Within most := by
  induction blocks generalizing segment with
  | nil =>
    refine ⟨by simp [placing], fun next placed => ?_⟩
    cases placed
    exact within
  | cons block rest ih =>
    obtain ⟨firstGood, othersGood⟩ := List.forall_mem_cons.mp good
    obtain ⟨firstLow, othersLow⟩ := List.forall_mem_cons.mp low
    unfold placing placeAll
    cases placed : segment.place overflow block with
    | error fault =>
      refine ⟨List.forall_mem_singleton.mpr within, fun next failed => ?_⟩
      cases failed
    | ok middle =>
      obtain ⟨passed, last⟩ := ih (placeWithin within firstGood firstLow placed) othersGood othersLow
      exact ⟨List.forall_mem_cons.mpr ⟨within, passed⟩, last⟩

theorem injectingWithin {txs : List (Nat × BlockTx)}
    (parsed : ∀ entry ∈ txs, BlockTx.ofBytes entry.2.data = .ok entry.2) :
    ∀ passed ∈ segment.injecting overflow txs, passed.Within most := by
  induction txs generalizing segment with
  | nil => simp [injecting]
  | cons entry rest ih =>
    obtain ⟨height, tx⟩ := entry
    obtain ⟨head, tail⟩ := List.forall_mem_cons.mp parsed
    refine List.forall_mem_cons.mpr ⟨within, ?_⟩
    cases first : segment.inject overflow height tx with
    | error fault => simp
    | ok next => exact ih (injectWithin within head first) tail

theorem placeAllLow (overflow : Overflow) (small : most < greatest64) {blocks : List Block}
    (good : ∀ block ∈ blocks, block.WellFormed) (low : ∀ block ∈ blocks, block.height ≤ most) :
    ∃ next, segment.placeAll overflow blocks = .ok next ∧ next.Within most := by
  induction blocks generalizing segment with
  | nil => exact ⟨segment, rfl, within⟩
  | cons block rest ih =>
    obtain ⟨firstGood, othersGood⟩ := List.forall_mem_cons.mp good
    obtain ⟨firstLow, othersLow⟩ := List.forall_mem_cons.mp low
    have placed : segment.place overflow block = .ok (segment.placeUpTo segment.stop block) :=
      placeOk.mpr ⟨segment.stop, countedWithin within small, rfl⟩
    obtain ⟨next, others, last⟩ := ih (placeWithin within firstGood firstLow placed) othersGood
      othersLow
    exact ⟨next, placeAllCons.mpr ⟨_, placed, others⟩, last⟩

end

section
variable {overflow : Overflow} {segment : Segment} {fault : Fault}

theorem placeError {block : Block} : segment.place overflow block = .error fault ↔
    fault = .overflow ∧ overflow = .ends ∧ greatest64 < segment.stop := by
  rw [← stop64Error, place]
  cases segment.stop64 overflow with
  | error own =>
    show Except.error own = Except.error fault ↔ _
    rw [Except.error.injEq, Except.error.injEq]
  | ok stop =>
    constructor
    · intro failed
      cases failed
    · intro failed
      cases failed

theorem placeAllError {blocks : List Block} : segment.placeAll overflow blocks = .error fault ↔
    fault = .overflow ∧ overflow = .ends ∧
      ∃ passed ∈ segment.placing overflow blocks, greatest64 < passed.stop := by
  induction blocks generalizing segment with
  | nil => simp [placeAll, placing]
  | cons block rest ih =>
    unfold placing placeAll
    cases placed : segment.place overflow block with
    | error own =>
      obtain ⟨rfl, ends, beyond⟩ := placeError.mp placed
      show Except.error .overflow = .error fault ↔ _
      simp [ends, beyond, eq_comm]
    | ok middle =>
      -- An end that does not fit belongs to a later segment, for this one has been counted.
      have counted : ¬ (overflow = .ends ∧ greatest64 < segment.stop) := by
        intro beyond
        rw [placeError.mpr ⟨rfl, beyond⟩] at placed
        contradiction
      show middle.placeAll overflow rest = .error fault ↔ _
      rw [ih]
      constructor
      · intro h
        obtain ⟨same, ends, passed, member, beyond⟩ := h
        exact ⟨same, ends, passed, List.mem_cons_of_mem _ member, beyond⟩
      · intro h
        obtain ⟨same, ends, passed, member, beyond⟩ := h
        rcases List.mem_cons.mp member with rfl | later
        · exact absurd ⟨ends, beyond⟩ counted
        · exact ⟨same, ends, passed, later, beyond⟩

end

end Segment

end WalletProxy
