import WalletProxy.Proofs.StagingUnseen

/-! The segments whose ends a commit compares heights with. An end fits in 64 bits unless its segment
ends with a block that declares the greatest number there is; below it every comparison is one of
true heights, and at it a commit has no result or refuses a transaction whose block is there. -/
namespace WalletProxy
open Unsigned (Overflow greatest64)

namespace Segment

section
variable {overflow : Overflow} {segment : Segment}

theorem injectOverflow {height : Nat} {tx : BlockTx} :
    segment.inject overflow height tx = .error .overflow ↔
      overflow = .ends ∧ greatest64 < segment.stop := by
  rw [injectError]
  constructor
  · intro refused
    cases refused with
    | overflow uncounted => exact (stop64Error.mp uncounted).2
  · intro beyond
    exact .overflow (stop64Error.mpr ⟨rfl, beyond⟩)

theorem injectAllOverflow {txs : List (Nat × BlockTx)} :
    segment.injectAll overflow txs = .error .overflow ↔
      overflow = .ends ∧ ∃ passed ∈ segment.injecting overflow txs, greatest64 < passed.stop := by
  induction txs generalizing segment with
  | nil => simp [injectAll, injecting]
  | cons entry rest ih =>
    obtain ⟨height, tx⟩ := entry
    unfold injecting injectAll
    cases put : segment.inject overflow height tx with
    | error fault =>
      have here : segment.inject overflow height tx = .error .overflow ↔ _ := injectOverflow
      rw [put, Except.error.injEq] at here
      show Except.error fault = .error .overflow ↔ _
      rw [Except.error.injEq, here]
      simp
    | ok middle =>
      -- An end that does not fit belongs to a later segment, for this one has been counted.
      have counted : ¬ (overflow = .ends ∧ greatest64 < segment.stop) := by
        intro beyond
        rw [injectOverflow.mpr beyond] at put
        contradiction
      show middle.injectAll overflow rest = .error .overflow ↔ _
      rw [ih]
      constructor
      · intro h
        obtain ⟨ends, passed, member, beyond⟩ := h
        exact ⟨ends, passed, List.mem_cons_of_mem _ member, beyond⟩
      · intro h
        obtain ⟨ends, passed, member, beyond⟩ := h
        rcases List.mem_cons.mp member with rfl | later
        · exact absurd ⟨ends, beyond⟩ counted
        · exact ⟨ends, passed, later, beyond⟩

end

end Segment

namespace SimChain

def measured (overflow : Overflow) (chain : SimChain) : List Segment :=
  if !chain.isReset then []
  else chain.active.placing overflow chain.stagedBlocks ++
    match chain.merged overflow with
    | .error _ => []
    | .ok merged => merged.injecting overflow chain.stagedTxs

section
variable (overflow : Overflow) {chain : SimChain} {most : Nat} (valid : chain.Valid)
  (active : chain.active.Within most) (staged : ∀ block ∈ chain.stagedBlocks, block.height ≤ most)
include valid active staged

theorem measuredWithin : ∀ segment ∈ chain.measured overflow, segment.Within most := by
  obtain ⟨passed, last⟩ := Segment.placingWithin active overflow valid.blocks staged
  unfold measured
  split
  · simp
  · refine List.forall_mem_append.mpr ⟨passed, ?_⟩
    cases placed : chain.merged overflow with
    | error fault => simp
    | ok merged => exact Segment.injectingWithin (last merged placed) valid.txs

end

theorem commitUncounted (overflow : Overflow) (chain : SimChain) (height : Nat) :
    (chain.commit overflow height).1 = none ↔
      overflow = .ends ∧ ∃ segment ∈ chain.measured overflow, greatest64 < segment.stop := by
  rw [commitNone]
  unfold measured
  cases ready : chain.isReset with
  | false => simp
  | true =>
    rw [if_neg (by decide), and_iff_right rfl, filled, Results.bindError]
    cases placed : chain.merged overflow with
    | error fault =>
      obtain ⟨rfl, ends, passed, member, beyond⟩ := Segment.placeAllError.mp placed
      exact iff_of_true (Or.inl rfl) ⟨ends, passed, List.mem_append_left _ member, beyond⟩
    | ok merged =>
      have placing : ¬ (overflow = .ends ∧ ∃ passed ∈ chain.active.placing overflow
          chain.stagedBlocks, greatest64 < passed.stop) := by
        intro beyond
        cases placed.symm.trans (Segment.placeAllError.mpr ⟨rfl, beyond⟩)
      constructor
      · intro h
        rcases h with failed | ⟨_, same, failed⟩
        · cases failed
        · cases same
          obtain ⟨ends, passed, member, beyond⟩ := Segment.injectAllOverflow.mp failed
          exact ⟨ends, passed, List.mem_append_right _ member, beyond⟩
      · intro h
        obtain ⟨ends, passed, member, beyond⟩ := h
        rcases List.mem_append.mp member with early | late
        · exact absurd ⟨ends, passed, early, beyond⟩ placing
        · exact Or.inr ⟨merged, rfl, Segment.injectAllOverflow.mpr ⟨ends, passed, late, beyond⟩⟩

theorem endsFit (overflow : Overflow) (requests : List Request) :
    let chain := fresh.run overflow requests
    (∀ segment ∈ chain.measured overflow, segment.stop ≤ greatest64 + 1 ∧
      (greatest64 < segment.stop ↔
        ∃ last, segment.blocks.getLast? = some last ∧ last.height = greatest64)) ∧
    (∀ height, (chain.commit overflow height).1 = none ↔
      overflow = .ends ∧ ∃ segment ∈ chain.measured overflow, greatest64 < segment.stop) ∧
    ((∀ block ∈ chain.active.blocks ++ chain.stagedBlocks, block.height < greatest64) →
      (∀ segment ∈ chain.measured overflow, segment.stop64 overflow = .ok segment.stop) ∧
      ∀ height, (chain.commit overflow height).1 ≠ none) := by
  intro chain
  have valid : chain.Valid := runValid freshValid overflow requests
  have without := commitUncounted overflow chain
  refine ⟨fun segment member => ?_, without, fun lower => ?_⟩
  · have within := measuredWithin overflow valid (Segment.soundWithin valid.sound)
      (fun block staged => Block.heightBound (valid.blocks block staged)) segment member
    exact ⟨Segment.stopWithin within, Segment.topWithin within⟩
  · obtain ⟨activeLow, stagedLow⟩ := List.forall_mem_append.mp lower
    have active : chain.active.Within (greatest64 - 1) :=
      ⟨valid.sound, fun block member => Nat.le_sub_one_of_lt (activeLow block member)⟩
    have within := measuredWithin overflow valid active fun block member =>
      Nat.le_sub_one_of_lt (stagedLow block member)
    refine ⟨fun segment member => Segment.countedWithin (within segment member) (by decide),
      fun height unanswered => ?_⟩
    obtain ⟨_, segment, member, beyond⟩ := (without height).mp unanswered
    have ends := Segment.stopWithin (within segment member)
    have small : greatest64 - 1 + 1 = greatest64 := by decide
    omega

def wideCoinbase (height : Nat) : Bytes :=
  [1, 0, 0, 0, 1] ++ List.replicate 36 0 ++ [9, 8] ++ Bytes.ofNat 8 height ++ List.replicate 9 0

def wideBlock (height : Nat) : Block where
  header := ⟨4, Bytes32.zero, Bytes32.zero, Bytes32.zero, 1, 0, Bytes32.zero, []⟩
  height
  transactions := [⟨doubleSha256 (wideCoinbase height), wideCoinbase height⟩]

def wideRun (height : Nat) : List Request :=
  [.reset 1 "c2d6d0b4" "regtest", .stageBlock (wideBlock height).write,
    .stageTx height (wideCoinbase height)]

theorem secondGreatestFits :
    let chain := fresh.run .ends (wideRun (greatest64 - 1))
    (∀ block ∈ chain.active.blocks ++ chain.stagedBlocks, block.height < greatest64) ∧
      (chain.measured .ends).map Segment.stop = [0, greatest64] ∧
      (∀ segment ∈ chain.measured .ends, segment.stop64 .ends = .ok segment.stop) ∧
      (chain.commit .ends 1).1 = some (.ok ()) := by
  intro chain
  have declared : (chain.active.blocks ++ chain.stagedBlocks).map Block.height =
      [greatest64 - 1] := by rfl
  have lower : ∀ block ∈ chain.active.blocks ++ chain.stagedBlocks, block.height < greatest64 := by
    intro block member
    have own := List.mem_map_of_mem (f := Block.height) member
    rw [declared, List.mem_singleton] at own
    rw [own]
    decide
  obtain ⟨_, _, fits⟩ := endsFit .ends (wideRun (greatest64 - 1))
  exact ⟨lower, by rfl, (fits lower).1, by rfl⟩

/- The block at the greatest height is taken in at 0, and ends where 64 bits end. A build that checks
its sums has no result then, and one that wraps finds no block at that height. -/
theorem greatestOverflows :
    ((fresh.run .ends (wideRun greatest64)).commit .ends greatest64).1 = none ∧
      ((fresh.run .wraps (wideRun greatest64)).commit .wraps greatest64).1 =
        some (.error (.outside greatest64 greatest64 0)) ∧
      ¬ ∀ requests, ∀ segment ∈ (fresh.run .ends requests).measured .ends,
        segment.stop ≤ greatest64 := by
  have ends : ((fresh.run .ends (wideRun greatest64)).measured .ends).map Segment.stop =
      [0, greatest64 + 1] := by rfl
  refine ⟨by rfl, by rfl, fun fits => ?_⟩
  obtain ⟨segment, member, same⟩ : ∃ segment ∈ (fresh.run .ends (wideRun greatest64)).measured .ends,
      segment.stop = greatest64 + 1 := by
    rw [← List.mem_map, ends]
    exact List.mem_cons_of_mem 0 (List.mem_singleton_self _)
  have low := fits _ segment member
  omega

end SimChain

end WalletProxy
