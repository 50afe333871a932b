import WalletProxy.Proofs.HeightBounds
import WalletProxy.Proofs.Reorganization
import WalletProxy.Proofs.StagingArea

/-! Committing at once or in batches. What a block says of its predecessor decides nothing when
blocks are placed and transactions put in, and relinking overwrites it. So a commit in between
leaves no trace in the next one. -/
namespace WalletProxy
open Unsigned (Overflow greatest64)

namespace Block

theorem withPrevTwice (block : Block) (prev other : Bytes32) :
    (block.withPrev prev).withPrev other = block.withPrev other := rfl

theorem appendWithPrev (block : Block) (prev : Bytes32) (tx : BlockTx) :
    (block.withPrev prev).append tx = (block.append tx).map (·.withPrev prev) := by
  have same : (block.withPrev prev).transactions = block.transactions := rfl
  unfold append
  rw [same]
  split
  · rfl
  · rfl

end Block

namespace Segment

def bare (segment : Segment) : Segment :=
  { segment with blocks := segment.blocks.map (·.withPrev Bytes32.zero) }

theorem linkedOfBare (prev : Bytes32) (blocks : List Block) :
    linked prev (blocks.map (·.withPrev Bytes32.zero)) = linked prev blocks := by
  induction blocks generalizing prev with
  | nil => rfl
  | cons block rest ih => exact congrArg (block.withPrev prev :: ·) (ih _)

theorem bareOfLinked (prev : Bytes32) (blocks : List Block) :
    (linked prev blocks).map (·.withPrev Bytes32.zero) =
      blocks.map (·.withPrev Bytes32.zero) := by
  induction blocks generalizing prev with
  | nil => rfl
  | cons block rest ih => exact congrArg (block.withPrev Bytes32.zero :: ·) (ih _)

section
variable (segment : Segment)

theorem relinkBare : segment.bare.relink = segment.relink :=
  congrArg (Segment.mk segment.start) (linkedOfBare _ _)

theorem bareRelink : segment.relink.bare = segment.bare :=
  congrArg (Segment.mk segment.start) (bareOfLinked _ _)

theorem bareStop : segment.bare.stop = segment.stop :=
  congrArg (segment.start + ·) (List.length_map _)

theorem stop64Bare (overflow : Overflow) :
    segment.bare.stop64 overflow = segment.stop64 overflow := by
  unfold stop64
  rw [bareStop]

theorem belowBare (stop height : Nat) :
    segment.bare.below stop height = (segment.below stop height).map (·.withPrev Bytes32.zero) := by
  have start : segment.bare.start = segment.start := rfl
  unfold below
  rw [start]
  split
  · exact List.map_take.symm
  · rfl

theorem placeUpToBare (stop : Nat) (block : Block) :
    (segment.bare.placeUpTo stop block).bare = (segment.placeUpTo stop block).bare := by
  unfold placeUpTo
  dsimp only
  rw [belowBare, List.getLast?_map]
  cases (segment.below stop block.height).getLast? with
  | none => rfl
  | some tip =>
    rw [Option.map_some]
    simp only [bare, List.map_append, List.map_map, List.map_cons, List.map_nil,
      Function.comp_def, Block.withPrevTwice]

theorem placeBare (overflow : Overflow) (block : Block) :
    (segment.bare.place overflow block).map bare = (segment.place overflow block).map bare := by
  unfold place
  rw [stop64Bare]
  cases segment.stop64 overflow with
  | error fault => rfl
  | ok stop => exact congrArg Except.ok (placeUpToBare segment stop block)

theorem blockBare (height : Nat) :
    segment.bare.block? height = (segment.block? height).map (·.withPrev Bytes32.zero) := by
  have start : segment.bare.start = segment.start := rfl
  unfold block?
  rw [start]
  split
  · exact List.getElem?_map
  · rfl

theorem injectUpToBare (stop height : Nat) (tx : BlockTx) :
    segment.bare.injectUpTo stop height tx = (segment.injectUpTo stop height tx).map bare := by
  have found : (if height < stop then segment.bare.block? height else none) =
      (if height < stop then segment.block? height else none).map (·.withPrev Bytes32.zero) := by
    rw [blockBare]
    split
    · rfl
    · rfl
  unfold injectUpTo
  rw [found]
  cases (if height < stop then segment.block? height else none) with
  | none => rfl
  | some block =>
    rw [Option.map_some]
    dsimp only
    rw [Block.appendWithPrev]
    cases block.append tx with
    | error fault => rfl
    | ok fuller =>
      show Except.ok (Segment.mk segment.start _) = Except.ok (Segment.mk segment.start _)
      rw [List.map_set]
      rfl

theorem injectBare (overflow : Overflow) (height : Nat) (tx : BlockTx) :
    segment.bare.inject overflow height tx = (segment.inject overflow height tx).map bare := by
  unfold inject
  rw [stop64Bare]
  cases segment.stop64 overflow with
  | error fault => rfl
  | ok stop => exact injectUpToBare segment stop height tx

theorem injectAllBare (overflow : Overflow) (txs : List (Nat × BlockTx)) :
    segment.bare.injectAll overflow txs = (segment.injectAll overflow txs).map bare := by
  induction txs generalizing segment with
  | nil => rfl
  | cons entry rest ih =>
    obtain ⟨height, tx⟩ := entry
    unfold injectAll
    rw [injectBare]
    cases segment.inject overflow height tx with
    | error fault => rfl
    | ok next => exact ih next

theorem injectAllAppend (overflow : Overflow) (first second : List (Nat × BlockTx)) :
    segment.injectAll overflow (first ++ second) =
      segment.injectAll overflow first >>= fun next => next.injectAll overflow second := by
  induction first generalizing segment with
  | nil => rfl
  | cons entry rest ih =>
    obtain ⟨height, tx⟩ := entry
    show segment.inject overflow height tx >>=
        (fun next => next.injectAll overflow (rest ++ second)) =
      (segment.inject overflow height tx >>= fun next => next.injectAll overflow rest) >>= _
    cases segment.inject overflow height tx with
    | error fault => rfl
    | ok next => exact ih next

end

section
variable (overflow : Overflow) {segment other : Segment} (same : segment.bare = other.bare)
include same

theorem placeAllOfBare (blocks : List Block) :
    (segment.placeAll overflow blocks).map bare = (other.placeAll overflow blocks).map bare := by
  induction blocks generalizing segment other with
  | nil => exact congrArg Except.ok same
  | cons block rest ih =>
    have first :
        (segment.place overflow block).map bare = (other.place overflow block).map bare := by
      rw [← placeBare, same, placeBare]
    unfold placeAll
    cases own : segment.place overflow block with
    | error fault =>
      cases theirs : other.place overflow block with
      | error fault =>
        rw [own, theirs] at first
        cases first
        rfl
      | ok next =>
        rw [own, theirs] at first
        cases first
    | ok next =>
      cases theirs : other.place overflow block with
      | error fault =>
        rw [own, theirs] at first
        cases first
      | ok after =>
        rw [own, theirs] at first
        exact ih (Except.ok.inj first)

theorem injectAllOfBare (txs : List (Nat × BlockTx)) :
    (segment.injectAll overflow txs).map bare = (other.injectAll overflow txs).map bare := by
  rw [← injectAllBare, same, injectAllBare]

end

theorem relinkOfBare {first second : Except Fault Segment}
    (same : first.map bare = second.map bare) :
    first.map relink = second.map relink := by
  have through : ∀ built : Except Fault Segment, built.map relink = (built.map bare).map relink := by
    intro built
    cases built with
    | error fault => rfl
    | ok segment => exact congrArg Except.ok (relinkBare segment).symm
  rw [through first, same, through second]

theorem relinkSame {segment : Segment} (linked : segment.Linked) : segment.relink = segment := by
  have size : segment.relink.blocks.length = segment.blocks.length := linkedLength _ _
  have blocks : segment.relink.blocks = segment.blocks := by
    refine List.ext_getElem? fun index => ?_
    cases found : segment.blocks[index]? with
    | none =>
      rw [List.getElem?_eq_none_iff, size]
      exact List.getElem?_eq_none_iff.mp found
    | some block =>
      have there : segment.block? (segment.start + index) = some block :=
        blockAt.mpr ⟨by omega, by rw [Nat.add_sub_cancel_left]; exact found⟩
      obtain ⟨_, position⟩ := blockAt.mp (relinkKeeps linked rfl (fun _ _ => rfl) there)
      have offset : segment.start + index - segment.relink.start = index :=
        Nat.add_sub_cancel_left ..
      rwa [offset] at position
  exact congrArg (Segment.mk segment.start) blocks

end Segment

namespace SimChain

section
variable {overflow : Overflow} {chain : SimChain}

theorem commitIs (tip : Nat) (ready : chain.isReset = true) :
    chain.commit overflow tip = match (chain.filled overflow).map Segment.relink with
      | .error fault => ((SimError.ofFault fault).map .error,
          { chain with stagedBlocks := [], stagedTxs := [] })
      | .ok active => (some (.ok ()), { chain with
          stagedBlocks := [], stagedTxs := [], active, latest := some tip }) := by
  cases built : chain.filled overflow with
  | error fault => exact commitRefused tip ready built
  | ok segment => exact commitGranted tip ready built

theorem commitAlike {other : SimChain} (tip : Nat) (ready : chain.isReset = true)
    (session : other = { chain with
      active := other.active, latest := other.latest, stagedBlocks := other.stagedBlocks,
      stagedTxs := other.stagedTxs })
    (alike : (other.filled overflow).map Segment.relink =
      (chain.filled overflow).map Segment.relink) :
    (other.commit overflow tip).1 = (chain.commit overflow tip).1 ∧
      ((chain.commit overflow tip).1 = some (.ok ()) →
        other.commit overflow tip = chain.commit overflow tip) := by
  have otherReady : other.isReset = true := by
    rw [session]
    exact ready
  rw [commitIs tip ready, commitIs tip otherReady, alike]
  cases (chain.filled overflow).map Segment.relink with
  | error fault => exact ⟨rfl, fun granted => absurd granted (ungranted fault)⟩
  | ok active =>
    refine ⟨rfl, fun _ => ?_⟩
    dsimp only
    rw [session]

end

section
variable (overflow : Overflow) {chain : SimChain} (ready : chain.isReset = true)
  (unstaged : chain.stagedBlocks = [] ∧ chain.stagedTxs = [])
include ready unstaged

theorem stagedFilled {requests : List Request}
    (staging : ∀ request ∈ requests, request.stages = true) :
    (chain.run overflow requests).filled overflow =
      chain.active.placeAll overflow (requests.flatMap (Request.blocks overflow)) >>=
        fun merged => merged.injectAll overflow (requests.flatMap Request.txs) := by
  rw [runAdds ready overflow staging]
  simp [filled, merged, withStaged, unstaged]

theorem stagedMerged {requests : List Request}
    (staging : ∀ request ∈ requests, request.stagesBlocks = true) :
    (chain.run overflow requests).filled overflow =
      chain.active.placeAll overflow (requests.flatMap (Request.blocks overflow)) := by
  obtain ⟨stages, noTxs⟩ := blocksStaged staging
  rw [stagedFilled overflow ready unstaged stages, noTxs]
  exact bind_pure _

omit unstaged in
theorem batchesJoin {first second : List Request} {segment : Segment} (early tip : Nat)
    (staging : ∀ request ∈ first ++ second, request.stages = true)
    (built : (chain.run overflow first).filled overflow = .ok segment)
    (alike : (segment.relink.placeAll overflow (second.flatMap (Request.blocks overflow)) >>=
        fun merged => merged.injectAll overflow (second.flatMap Request.txs)).map Segment.relink =
      ((chain.run overflow (first ++ second)).filled overflow).map Segment.relink) :
    let between := (chain.run overflow first).commit overflow early
    let twice := (between.2.run overflow second).commit overflow tip
    let once := (chain.run overflow (first ++ second)).commit overflow tip
    between.1 = some (.ok ()) ∧ twice.1 = once.1 ∧ (once.1 = some (.ok ()) → twice = once) := by
  intro between twice once
  obtain ⟨before, after⟩ := List.forall_mem_append.mp staging
  have begun := runAdds ready overflow before
  have begunReady : (chain.run overflow first).isReset = true := by
    rw [begun]
    exact ready
  have granted : between = (some (.ok ()), { chain.run overflow first with
      stagedBlocks := [], stagedTxs := [], active := segment.relink, latest := some early }) :=
    commitGranted early begunReady built
  have left : between.2 = { chain with
      stagedBlocks := [], stagedTxs := [], active := segment.relink, latest := some early } := by
    rw [granted, begun]
    rfl
  have leftReady : between.2.isReset = true := by
    rw [left]
    exact ready
  have cleared : between.2.stagedBlocks = [] ∧ between.2.stagedTxs = [] := by
    rw [left]
    exact ⟨rfl, rfl⟩
  refine ⟨congrArg Prod.fst granted, commitAlike tip ?_ ?_ ?_⟩
  · rw [runAdds ready overflow staging]
    exact ready
  · rw [runAdds ready overflow staging, runAdds leftReady overflow after, left]
    rfl
  · rw [stagedFilled overflow leftReady cleared after, left]
    exact alike

theorem blocksJoin {first second : List Request} (early tip : Nat)
    (staging : ∀ request ∈ first ++ second, request.stagesBlocks = true) :
    let between := (chain.run overflow first).commit overflow early
    let once := (chain.run overflow (first ++ second)).commit overflow tip
    (once.1 = none ↔ overflow = .ends ∧ ∃ passed ∈ chain.active.placing overflow
      ((first ++ second).flatMap (Request.blocks overflow)), greatest64 < passed.stop) ∧
    (once.1 ≠ none → between.1 = some (.ok ()) ∧ once.1 = some (.ok ()) ∧
      (between.2.run overflow second).commit overflow tip = once) := by
  intro between once
  obtain ⟨before, after⟩ := List.forall_mem_append.mp staging
  obtain ⟨stages, _⟩ := blocksStaged staging
  obtain ⟨_, noTxs⟩ := blocksStaged after
  have all := stagedMerged overflow ready unstaged staging
  have onceReady : (chain.run overflow (first ++ second)).isReset = true := by
    rw [runAdds ready overflow stages]
    exact ready
  have without : once.1 = none ↔ chain.active.placeAll overflow
      ((first ++ second).flatMap (Request.blocks overflow)) = .error .overflow := by
    rw [commitNone, and_iff_right onceReady, all]
  refine ⟨by rw [without, Segment.placeAllError, and_iff_right rfl], fun answered => ?_⟩
  cases placed : chain.active.placeAll overflow
      ((first ++ second).flatMap (Request.blocks overflow)) with
  | error fault =>
    obtain ⟨rfl, _⟩ := Segment.placeAllError.mp placed
    exact absurd (without.mpr placed) answered
  | ok merged =>
    have granted : once.1 = some (.ok ()) :=
      congrArg Prod.fst (commitGranted tip onceReady (all.trans placed))
    rw [List.flatMap_append, Segment.placeAllAppend, Results.bindOk] at placed
    obtain ⟨middle, made, others⟩ := placed
    obtain ⟨began, _, same⟩ := batchesJoin overflow ready early tip stages
      ((stagedMerged overflow ready unstaged before).trans made) (by
        rw [all, noTxs, List.flatMap_append, Segment.placeAllAppend, made]
        exact Segment.relinkOfBare ((congrArg _ (bind_pure _)).trans
          (Segment.placeAllOfBare overflow (Segment.bareRelink middle) _)))
    exact ⟨began, granted, same granted⟩

theorem txsJoin {first second : List Request} (early tip : Nat)
    (staging : ∀ request ∈ first, request.stages = true)
    (sending : ∀ request ∈ second, request.stagesTxs = true) :
    let between := (chain.run overflow first).commit overflow early
    let twice := (between.2.run overflow second).commit overflow tip
    let once := (chain.run overflow (first ++ second)).commit overflow tip
    (once.1 = some (.ok ()) ↔ between.1 = some (.ok ()) ∧ twice.1 = some (.ok ())) ∧
      (once.1 = some (.ok ()) → twice = once) := by
  intro between twice once
  obtain ⟨stagesSecond, noBlocks⟩ := txsStaged overflow sending
  have stages := List.forall_mem_append.mpr ⟨staging, stagesSecond⟩
  have all : (chain.run overflow (first ++ second)).filled overflow =
      (chain.run overflow first).filled overflow >>= fun segment =>
        segment.injectAll overflow (second.flatMap Request.txs) := by
    rw [stagedFilled overflow ready unstaged stages, stagedFilled overflow ready unstaged staging,
      List.flatMap_append, List.flatMap_append, noBlocks, List.append_nil, bind_assoc]
    exact congrArg _ (funext fun merged => Segment.injectAllAppend merged overflow _ _)
  cases built : (chain.run overflow first).filled overflow with
  | error fault =>
    rw [built] at all
    have firstReady : (chain.run overflow first).isReset = true := by
      rw [runAdds ready overflow staging]
      exact ready
    have onceReady : (chain.run overflow (first ++ second)).isReset = true := by
      rw [runAdds ready overflow stages]
      exact ready
    have refused : between.1 ≠ some (.ok ()) := by
      rw [show between = _ from commitRefused early firstReady built]
      exact ungranted fault
    have refusedOnce : once.1 ≠ some (.ok ()) := by
      rw [show once = _ from commitRefused tip onceReady all]
      exact ungranted fault
    simp [refused, refusedOnce]
  | ok segment =>
    obtain ⟨began, result, same⟩ := batchesJoin overflow ready early tip stages built (by
      rw [all, built, noBlocks]
      exact Segment.relinkOfBare (Segment.injectAllOfBare overflow (Segment.bareRelink segment) _))
    exact ⟨by rw [← result, and_iff_right began], same⟩

end

theorem commitsJoin (overflow : Overflow) (requests : List Request) (early tip : Nat)
    (ready : requests.any Request.starts = true)
    (unstaged : (fresh.run overflow requests).stagedBlocks = [] ∧
      (fresh.run overflow requests).stagedTxs = []) :
    let chain := fresh.run overflow requests
    let between (first : List Request) := (chain.run overflow first).commit overflow early
    let twice (first second : List Request) :=
      ((between first).2.run overflow second).commit overflow tip
    let once (first second : List Request) :=
      (chain.run overflow (first ++ second)).commit overflow tip
    (∀ first second, (∀ request ∈ first ++ second, request.stagesBlocks = true) →
      let blocks := (first ++ second).flatMap (Request.blocks overflow)
      ((once first second).1 = none ↔ overflow = .ends ∧
        ∃ passed ∈ chain.active.placing overflow blocks, greatest64 < passed.stop) ∧
      ((∀ block ∈ chain.active.blocks ++ blocks, block.height < greatest64) →
        (once first second).1 ≠ none) ∧
      ((once first second).1 ≠ none → (between first).1 = some (.ok ()) ∧
        (once first second).1 = some (.ok ()) ∧ twice first second = once first second)) ∧
    (∀ first second, (∀ request ∈ first, request.stages = true) →
      (∀ request ∈ second, request.stagesTxs = true) →
      ((once first second).1 = some (.ok ()) ↔
        (between first).1 = some (.ok ()) ∧ (twice first second).1 = some (.ok ())) ∧
      ((once first second).1 = some (.ok ()) → twice first second = once first second)) ∧
    chain.commit overflow tip = (some (.ok ()), { chain with latest := some tip }) := by
  intro chain between twice once
  have isReady : chain.isReset = true := (runReady overflow fresh requests).trans ready
  have valid : chain.Valid := runValid freshValid overflow requests
  refine ⟨fun first second staging => ?_,
    fun _ _ staging sending => txsJoin overflow isReady unstaged early tip staging sending, ?_⟩
  · obtain ⟨without, joined⟩ := blocksJoin overflow isReady unstaged early tip staging
    refine ⟨without, fun low unanswered => ?_, joined⟩
    obtain ⟨stages, _⟩ := blocksStaged staging
    have kept : (chain.run overflow (first ++ second)).active = chain.active ∧
        (chain.run overflow (first ++ second)).stagedBlocks =
          (first ++ second).flatMap (Request.blocks overflow) := by
      rw [runAdds isReady overflow stages]
      exact ⟨rfl, congrArg (· ++ _) unstaged.1⟩
    obtain ⟨_, placed, _⟩ := placedLow overflow
      (runValid valid overflow (first ++ second)) (by rw [kept.1, kept.2]; exact low)
      (List.append_nil _).symm
    obtain ⟨_, unfilled⟩ := commitNone.mp unanswered
    rw [kept.1, kept.2] at placed
    cases placed.symm.trans ((stagedMerged overflow isReady unstaged staging).symm.trans unfilled)
  · obtain ⟨noBlocks, noTxs⟩ := unstaged
    have built : chain.filled overflow = .ok chain.active := by
      rw [filled, merged, noBlocks, noTxs]
      rfl
    rw [commitGranted tip isReady built, Segment.relinkSame valid.linked, ← noBlocks, ← noTxs]

def threeBlocks : List Request :=
  [.reset 1 "c2d6d0b4" "regtest", .stageFiller 1 0 3, .commit 3]

theorem threeGranted :
    (((fresh.run .ends threeBlocks).run .ends
      [.stageFiller 3 7 1, .stageFiller 4 8 1]).commit .ends 5).1 = some (.ok ()) ∧
    (((fresh.run .ends threeBlocks).run .ends [.stageFiller 3 7 2,
      .stageTx 3 (Filler.coinbase 700), .stageTx 4 (Filler.coinbase 701)]).commit .ends 5).1 =
        some (.ok ()) := ⟨by rfl, by rfl⟩

theorem threeBlocksJoin :
    let chain := fresh.run .ends threeBlocks
    (threeBlocks.any Request.starts = true ∧ chain.stagedBlocks = [] ∧ chain.stagedTxs = []) ∧
    (let once := (chain.run .ends [.stageFiller 3 7 1, .stageFiller 4 8 1]).commit .ends 5
      let between := (chain.run .ends [.stageFiller 3 7 1]).commit .ends 4
      once.1 = some (.ok ()) ∧ between.1 = some (.ok ()) ∧
        (between.2.run .ends [.stageFiller 4 8 1]).commit .ends 5 = once) ∧
    let once := (chain.run .ends [.stageFiller 3 7 2, .stageTx 3 (Filler.coinbase 700),
      .stageTx 4 (Filler.coinbase 701)]).commit .ends 5
    let between := (chain.run .ends [.stageFiller 3 7 2,
      .stageTx 3 (Filler.coinbase 700)]).commit .ends 4
    once.1 = some (.ok ()) ∧
      (between.2.run .ends [.stageTx 4 (Filler.coinbase 701)]).commit .ends 5 = once := by
  have ready : threeBlocks.any Request.starts = true := by decide
  have unstaged : (fresh.run .ends threeBlocks).stagedBlocks = [] ∧
      (fresh.run .ends threeBlocks).stagedTxs = [] := ⟨rfl, rfl⟩
  obtain ⟨granted, grantedTxs⟩ := threeGranted
  obtain ⟨placed, sent, _⟩ := commitsJoin .ends threeBlocks 4 5 ready unstaged
  obtain ⟨_, _, joined⟩ := placed [.stageFiller 3 7 1] [.stageFiller 4 8 1] (by decide)
  obtain ⟨_, same⟩ := sent [.stageFiller 3 7 2, .stageTx 3 (Filler.coinbase 700)]
    [.stageTx 4 (Filler.coinbase 701)] (by decide) (by decide)
  generalize fresh.run .ends threeBlocks = chain at *
  intro start
  dsimp only [List.cons_append, List.nil_append] at joined same
  obtain ⟨early, _, agree⟩ := joined (by rw [granted]; simp)
  exact ⟨⟨ready, unstaged⟩, ⟨granted, early, agree⟩, grantedTxs, same grantedTxs⟩

/- The greatest height is staged twice. The early commit leaves a chain of one block, and both the
second commit and the single one end at its uncounted end. -/
theorem greatestSplits :
    let chain := fresh.run .ends [.reset 1 "c2d6d0b4" "regtest"]
    let top := [Request.stageBlock (wideBlock greatest64).write]
    let between := (chain.run .ends top).commit .ends 4
    let twice := (between.2.run .ends top).commit .ends 5
    let once := (chain.run .ends (top ++ top)).commit .ends 5
    between.1 = some (.ok ()) ∧ twice.1 = none ∧ once.1 = none ∧
      twice.2.active.blocks.length = 1 ∧ once.2.active.blocks = [] ∧ twice.2 ≠ once.2 := by
  intro chain top between twice once
  have kept : twice.2.active.blocks.length = 1 := by rfl
  have lost : once.2.active.blocks = [] := by rfl
  refine ⟨by rfl, by rfl, by rfl, kept, lost, fun same => ?_⟩
  rw [same, lost] at kept
  contradiction

end SimChain

end WalletProxy
