import WalletProxy.Proofs.Placement
import WalletProxy.Proofs.SegmentEnds
import WalletProxy.Proofs.Staging

/-! What a commit does, whatever is staged. A granted one puts each staged transaction into the
block of the merged chain at its height; a refused one is refused for the first transaction that
cannot be put in, and leaves the chain as it was. Either way nothing stays staged. Below the greatest
height every end that is compared with is counted as it is, and each commit has a result. -/
namespace WalletProxy.SimChain
open Segment (sentTo FirstRefusal)
open Unsigned (Overflow greatest64)

section
variable (overflow : Overflow) {chain : SimChain} (height : Nat)

theorem commitNotReset (unready : chain.isReset = false) :
    chain.commit overflow height = (some (.error .notReset), chain) := by
  simp [commit, unready]

variable {overflow}

theorem commitGranted {segment : Segment} (ready : chain.isReset = true)
    (built : chain.filled overflow = .ok segment) :
    chain.commit overflow height = (some (.ok ()), { chain with
      stagedBlocks := [], stagedTxs := [], active := segment.relink, latest := some height }) := by
  simp [commit, ready, built]

theorem commitRefused {fault : Segment.Fault} (ready : chain.isReset = true)
    (refused : chain.filled overflow = .error fault) :
    chain.commit overflow height =
      ((SimError.ofFault fault).map .error, { chain with stagedBlocks := [], stagedTxs := [] }) := by
  simp [commit, ready, refused]

end

section
variable {overflow : Overflow} {chain : SimChain}

theorem ungranted (fault : Segment.Fault) :
    (SimError.ofFault fault).map Except.error ≠ some (Except.ok () : Except SimError Unit) := by
  cases fault <;> simp [SimError.ofFault]

theorem committedReady {height : Nat}
    (committed : (chain.commit overflow height).1 = some (.ok ())) : chain.isReset = true := by
  cases ready : chain.isReset with
  | true => rfl
  | false =>
    rw [commitNotReset overflow height ready] at committed
    cases committed

theorem commitOk {height : Nat} (committed : (chain.commit overflow height).1 = some (.ok ())) :
    ∃ merged segment, chain.merged overflow = .ok merged ∧
      merged.injectAll overflow chain.stagedTxs = .ok segment ∧
      (chain.commit overflow height).2 = { chain with
        stagedBlocks := [], stagedTxs := [], active := segment.relink, latest := some height } := by
  have ready := committedReady committed
  cases built : chain.filled overflow with
  | error fault =>
    rw [commitRefused height ready built] at committed
    exact absurd committed (ungranted fault)
  | ok segment =>
    obtain ⟨merged, placed, put⟩ := filledOk.mp built
    exact ⟨merged, segment, placed, put, by rw [commitGranted height ready built]⟩

theorem commitMerged {height : Nat} {merged : Segment}
    (committed : (chain.commit overflow height).1 = some (.ok ()))
    (placed : chain.merged overflow = .ok merged) :
    ∃ segment, merged.injectAll overflow chain.stagedTxs = .ok segment ∧
      (chain.commit overflow height).2 = { chain with
        stagedBlocks := [], stagedTxs := [], active := segment.relink, latest := some height } := by
  obtain ⟨_, segment, same, put, ends⟩ := commitOk committed
  cases placed.symm.trans same
  exact ⟨segment, put, ends⟩

theorem filledError {fault : Segment.Fault} : chain.filled overflow = .error fault ↔
    chain.merged overflow = .error fault ∨ ∃ merged, chain.merged overflow = .ok merged ∧
      FirstRefusal overflow merged chain.stagedTxs fault := by
  simp only [filled, Results.bindError, Segment.injectAllError]

theorem commitNone {height : Nat} : (chain.commit overflow height).1 = none ↔
    chain.isReset = true ∧ chain.filled overflow = .error .overflow := by
  cases ready : chain.isReset with
  | false => simp [commitNotReset overflow height ready]
  | true =>
    cases built : chain.filled overflow with
    | ok segment => simp [commitGranted height ready built]
    | error fault =>
      rw [commitRefused height ready built]
      cases fault <;> simp [SimError.ofFault]

theorem placedLow (overflow : Overflow) (valid : chain.Valid)
    (low : ∀ block ∈ chain.active.blocks ++ chain.stagedBlocks, block.height < greatest64)
    {earlier later : List Block} (split : chain.stagedBlocks = earlier ++ later) :
    ∃ before, chain.active.placeAll overflow earlier = .ok before ∧
      before.stop64 overflow = .ok before.stop := by
  obtain ⟨activeLow, stagedLow⟩ := List.forall_mem_append.mp low
  have active : chain.active.Within (greatest64 - 1) :=
    ⟨valid.sound, fun block member => Nat.le_sub_one_of_lt (activeLow block member)⟩
  have staged : ∀ block ∈ earlier, block ∈ chain.stagedBlocks := fun block member => by
    rw [split]
    exact List.mem_append_left later member
  obtain ⟨before, placed, within⟩ := Segment.placeAllLow active overflow (by decide)
    (fun block member => valid.blocks block (staged block member))
    fun block member => Nat.le_sub_one_of_lt (stagedLow block (staged block member))
  exact ⟨before, placed, Segment.countedWithin within (by decide)⟩

end

theorem commitPlaces (overflow : Overflow) (chain : SimChain) (height : Nat)
    (committed : (chain.commit overflow height).1 = some (.ok ())) :
    ∃ merged, chain.merged overflow = .ok merged ∧
    let after := (chain.commit overflow height).2
    (after.active.start = merged.start ∧ after.latest = some height ∧
      after.active.blocks.length = merged.blocks.length) ∧
    (∀ entry ∈ chain.stagedTxs, merged.start ≤ entry.1 ∧ entry.1 < merged.stop) ∧
    (∀ index old, merged.blocks[index]? = some old →
      ∃ block, after.active.blocks[index]? = some block ∧
        Block.Filled old (sentTo (merged.start + index) chain.stagedTxs) block) ∧
    after.stagedBlocks = [] ∧ after.stagedTxs = [] ∧ after.incoming = chain.incoming ∧
    after.isReset = chain.isReset ∧ after.activation = chain.activation ∧
    after.branch = chain.branch ∧ after.name = chain.name := by
  obtain ⟨merged, segment, placed, put, ends⟩ := commitOk committed
  refine ⟨merged, placed, ?_⟩
  intro after
  obtain ⟨start, length, fills⟩ := Segment.injectAllFills put
  have active : after.active = segment.relink := by rw [show after = _ from ends]
  refine ⟨⟨?_, ?_, ?_⟩, Segment.injectAllInside put, ?_, ?_⟩
  · rw [active]
    exact start
  · rw [show after = _ from ends]
  · rw [active]
    exact (Segment.linkedLength _ _).trans length
  · intro index old found
    have there : merged.block? (merged.start + index) = some old :=
      Segment.blockAt.mpr ⟨by omega, by rw [Nat.add_sub_cancel_left]; exact found⟩
    obtain ⟨fuller, kept, filled⟩ := fills _ old there
    obtain ⟨_, position⟩ := Segment.blockAt.mp kept
    rw [start, Nat.add_sub_cancel_left] at position
    -- Relinking gives the block another predecessor, and changes nothing else of it.
    obtain ⟨parent, relinked⟩ : ∃ parent,
        segment.relink.blocks[index]? = some (fuller.withPrev parent) :=
      Segment.linkedThere position
    exact ⟨_, by rw [active]; exact relinked, Block.filledWithPrev filled parent⟩
  · rw [show after = _ from ends]
    exact ⟨rfl, rfl, rfl, rfl, rfl, rfl, rfl⟩

def twoBlocks : SimChain :=
  fresh.run .ends [.reset 1 "c2d6d0b4" "regtest", .stageFiller 1 0 2,
    .stageTx 2 (Filler.coinbase 700), .stageTx 1 (Filler.coinbase 701),
    .stageTx 2 (Filler.coinbase 702)]

theorem twoBlocksCommitted :
    (twoBlocks.commit .ends 2).1 = some (.ok ()) ∧
      ∃ block, (twoBlocks.commit .ends 2).2.active.blocks[1]? = some block ∧
        block.transactions.map BlockTx.data = [2, 700, 702].map Filler.coinbase := by
  have committed : (twoBlocks.commit .ends 2).1 = some (.ok ()) := by rfl
  have own : (twoBlocks.merged .ends).toOption.map (fun merged => (merged.start,
      merged.blocks[1]?.map fun block => block.transactions.map BlockTx.data)) =
        some (1, some [Filler.coinbase 2]) := by rfl
  have sent : (sentTo 2 twoBlocks.stagedTxs).map BlockTx.data =
      [Filler.coinbase 700, Filler.coinbase 702] := by rfl
  obtain ⟨merged, placed, _, _, puts, _⟩ := commitPlaces .ends twoBlocks 2 committed
  rw [placed] at own
  obtain ⟨start, second⟩ := Prod.mk.inj (Option.some.inj own)
  obtain ⟨old, found, first⟩ := Option.map_eq_some_iff.mp second
  obtain ⟨block, there, filled⟩ := puts 1 old found
  refine ⟨committed, block, there, ?_⟩
  rw [filled.transactions, start, List.map_append, first, sent]
  rfl

theorem commitRefuses (overflow : Overflow) (requests : List Request) (height : Nat) :
    let chain := fresh.run overflow requests
    let result := (chain.commit overflow height).1
    let after := (chain.commit overflow height).2
    (requests.any Request.starts = false →
      chain.commit overflow height = (some (.error .notReset), chain)) ∧
    (requests.any Request.starts = true →
      (∀ error, result = some (.error error) ↔
        ∃ merged fault, chain.merged overflow = .ok merged ∧
          FirstRefusal overflow merged chain.stagedTxs fault ∧
          SimError.ofFault fault = some error) ∧
      (result ≠ some (.ok ()) → after = { chain with stagedBlocks := [], stagedTxs := [] }) ∧
      ((∀ block ∈ chain.active.blocks ++ chain.stagedBlocks, block.height < greatest64) →
        result ≠ none ∧ ∃ merged, chain.merged overflow = .ok merged ∧
          merged.stop64 overflow = .ok merged.stop)) := by
  intro chain result after
  have started : chain.isReset = requests.any Request.starts := runReady overflow fresh requests
  refine ⟨fun never => commitNotReset overflow height (started.trans never), fun once => ?_⟩
  have ready := started.trans once
  refine ⟨fun error => ?_, fun ungranted => ?_, fun low => ?_⟩
  · cases built : chain.filled overflow with
    | error fault =>
      have failed : result = (SimError.ofFault fault).map .error :=
        congrArg Prod.fst (commitRefused height ready built)
      rw [failed, Option.map_eq_some_iff]
      constructor
      · intro h
        obtain ⟨_, told, same⟩ := h
        cases same
        rcases filledError.mp built with unmerged | ⟨merged, placed, refusal⟩
        · obtain ⟨rfl, _⟩ := Segment.placeAllError.mp unmerged
          contradiction
        · exact ⟨merged, fault, placed, refusal, told⟩
      · intro h
        obtain ⟨merged, other, placed, refusal, told⟩ := h
        cases built.symm.trans (filledError.mpr (Or.inr ⟨merged, placed, refusal⟩))
        exact ⟨error, told, rfl⟩
    | ok segment =>
      have granted : result = some (.ok ()) := congrArg Prod.fst (commitGranted height ready built)
      rw [granted]
      constructor
      · intro failed
        cases failed
      · intro h
        obtain ⟨merged, fault, placed, refusal, _⟩ := h
        cases built.symm.trans (filledError.mpr (Or.inr ⟨merged, placed, refusal⟩))
  · cases built : chain.filled overflow with
    | error fault => exact congrArg Prod.snd (commitRefused height ready built)
    | ok segment => exact absurd (congrArg Prod.fst (commitGranted height ready built)) ungranted
  · obtain ⟨merged, placed, counted⟩ : ∃ merged, chain.merged overflow = .ok merged ∧ _ :=
      placedLow overflow (runValid freshValid overflow requests) low (List.append_nil _).symm
    refine ⟨fun unanswered => ?_, merged, placed, counted⟩
    obtain ⟨_, built⟩ := commitNone.mp unanswered
    rcases filledError.mp built with unmerged | ⟨_, same, _, _, _, _, _, refused⟩
    · cases placed.symm.trans unmerged
    · cases placed.symm.trans same
      cases refused with
      | overflow uncounted => cases counted.symm.trans uncounted

end WalletProxy.SimChain
