import WalletProxy.Proofs.Commit

/-! What a commit leaves of the chain that it finds. A staged block drops what stands at its height
and above; one that cannot follow the chain drops all of it. So each height holds in the end the
last block staged for it, or the old block if nothing was staged at that height or below. -/
namespace WalletProxy
open Unsigned (Overflow greatest64)

namespace Block

theorem withPrevSame {block : Block} {prev : Bytes32} (same : block.header.prev = prev) :
    block.withPrev prev = block := by
  subst same
  rfl

theorem filledOfWithPrev {old new : Block} {prev : Bytes32} {txs : List BlockTx}
    (filled : Filled (old.withPrev prev) txs new) : Filled old txs new :=
  ⟨filled.transactions, filled.height, filled.marker, filled.header⟩

end Block

namespace Segment
open Block (Filled)

section
variable (overflow : Overflow)

def Breaks (segment : Segment) (block : Block) : Prop :=
  ∃ stop, segment.stop64 overflow = .ok stop ∧
    (block.height < segment.start ∨ stop < block.height)

def Continues (segment : Segment) (blocks : List Block) : Prop :=
  ∀ earlier block later, blocks = earlier ++ block :: later →
    ∀ before, segment.placeAll overflow earlier = .ok before → ¬ Breaks overflow before block

end

def lastAt (height : Nat) (blocks : List Block) : Option Block :=
  (blocks.filter (·.height = height)).getLast?

section
variable {overflow : Overflow} {segment next : Segment}

theorem breaksCounted {stop : Nat} (counted : segment.stop64 overflow = .ok stop) {block : Block} :
    Breaks overflow segment block ↔ block.height < segment.start ∨ stop < block.height := by
  constructor
  · intro h
    obtain ⟨_, same, apart⟩ := h
    cases counted.symm.trans same
    exact apart
  · intro apart
    exact ⟨stop, counted, apart⟩

theorem continuesNil (overflow : Overflow) (segment : Segment) : Continues overflow segment [] := by
  intro earlier block later same
  simp at same

theorem continuesCons {block : Block} {rest : List Block}
    (placed : segment.place overflow block = .ok next) :
    Continues overflow segment (block :: rest) ↔
      ¬ Breaks overflow segment block ∧ Continues overflow next rest := by
  refine ⟨fun continues => ⟨continues [] block rest rfl segment rfl, ?_⟩, ?_⟩
  · intro earlier other later same before made
    subst same
    exact continues (block :: earlier) other later rfl before
      (placeAllCons.mpr ⟨next, placed, made⟩)
  · intro h earlier other later same before made
    obtain ⟨first, others⟩ := h
    cases earlier with
    | nil =>
      cases same
      cases made
      exact first
    | cons head earlier =>
      obtain ⟨rfl, rfl⟩ := List.cons.inj same
      obtain ⟨_, own, made⟩ := placeAllCons.mp made
      cases placed.symm.trans own
      exact others earlier other later rfl before made

theorem lastBreak {blocks : List Block} (placed : segment.placeAll overflow blocks = .ok next)
    (broken : ¬ Continues overflow segment blocks) :
    ∃ earlier block later before anew, blocks = earlier ++ block :: later ∧
      segment.placeAll overflow earlier = .ok before ∧ Breaks overflow before block ∧
      before.place overflow block = .ok anew ∧ anew.placeAll overflow later = .ok next ∧
      Continues overflow anew later := by
  induction blocks generalizing segment with
  | nil => exact absurd (continuesNil overflow segment) broken
  | cons head rest ih =>
    obtain ⟨middle, own, others⟩ := placeAllCons.mp placed
    by_cases after : Continues overflow middle rest
    · have first : Breaks overflow segment head := Classical.byContradiction fun whole =>
        broken ((continuesCons own).mpr ⟨whole, after⟩)
      exact ⟨[], head, rest, segment, middle, rfl, rfl, first, own, others, after⟩
    · obtain ⟨earlier, block, later, before, anew, rfl, made, breaks⟩ := ih others after
      exact ⟨head :: earlier, block, later, before, anew, rfl,
        placeAllCons.mpr ⟨middle, own, made⟩, breaks⟩

end

theorem lastAtMember {height : Nat} {blocks : List Block} {block : Block}
    (found : lastAt height blocks = some block) : block ∈ blocks ∧ block.height = height := by
  simpa using List.mem_filter.mp (List.mem_of_getLast? found)

theorem lastAtLater {height : Nat} {blocks : List Block} {block : Block}
    (found : lastAt height blocks = some block) (earlier : List Block) :
    lastAt height (earlier ++ blocks) = some block := by
  unfold lastAt at found ⊢
  rw [List.filter_append, List.getLast?_append, found]
  rfl

theorem lastAtFirst {block : Block} {rest : List Block}
    (above : ∀ other ∈ rest, block.height < other.height) :
    lastAt block.height (block :: rest) = some block := by
  have none : rest.filter (·.height = block.height) = [] := by
    refine List.filter_eq_nil_iff.mpr fun other member => ?_
    have := above other member
    simp only [decide_eq_true_eq]
    omega
  simp [lastAt, none]

section
variable {overflow : Overflow} {segment next : Segment}

section
variable {block : Block} (placed : segment.place overflow block = .ok next)
include placed

theorem placeStop : next.stop = block.height + 1 := by
  obtain ⟨stop, _, low, ⟨_, rfl⟩ | ⟨tip, ⟨above, reached⟩, _, rfl⟩⟩ := placeCases placed
  · rfl
  · unfold Segment.stop at low ⊢
    simp only [List.length_append, List.length_take, List.length_singleton]
    omega

theorem placeAt : ∃ prev, next.block? block.height = some (block.withPrev prev) := by
  obtain ⟨stop, _, low, ⟨_, rfl⟩ | ⟨tip, ⟨above, reached⟩, _, rfl⟩⟩ := placeCases placed
  · refine ⟨block.header.prev, ?_⟩
    rw [Block.withPrevSame rfl]
    simp [block?]
  · refine ⟨tip.hash, ?_⟩
    have size : (segment.blocks.take (block.height - segment.start)).length =
        block.height - segment.start := by
      unfold Segment.stop at low
      rw [List.length_take]
      omega
    rw [blockAt]
    refine ⟨Nat.le_of_lt above, ?_⟩
    dsimp only
    rw [List.getElem?_append_right (by omega), size, Nat.sub_self]
    rfl

theorem placeStart (whole : ¬ Breaks overflow segment block) : next.start = segment.start := by
  obtain ⟨stop, counted, _, ⟨apart, rfl⟩ | ⟨tip, _, _, rfl⟩⟩ := placeCases placed
  · rw [breaksCounted counted] at whole
    show block.height = segment.start
    omega
  · rfl

theorem placeAnew (breaks : Breaks overflow segment block) : next.start = block.height := by
  obtain ⟨stop, counted, _, ⟨_, rfl⟩ | ⟨tip, ⟨above, reached⟩, _, rfl⟩⟩ := placeCases placed
  · rfl
  · rw [breaksCounted counted] at breaks
    omega

theorem placeBelow {found : Block} {height : Nat} (under : height < block.height) :
    next.block? height = some found ↔
      ¬ Breaks overflow segment block ∧ segment.block? height = some found := by
  obtain ⟨stop, counted, low, ⟨apart, rfl⟩ | ⟨tip, ⟨above, reached⟩, _, rfl⟩⟩ := placeCases placed
  · -- Nothing is left below the block, and there was nothing below it if it stands at the start.
    rw [breaksCounted counted, blockAt, blockAt]
    refine ⟨fun h => ?_, fun h => ?_⟩
    · have := h.1
      dsimp only at this
      omega
    · omega
  · rw [breaksCounted counted, blockAt, blockAt]
    dsimp only
    rw [and_iff_right (by omega : ¬ (block.height < segment.start ∨ stop < block.height))]
    refine and_congr_right fun from_start => ?_
    unfold Segment.stop at low
    rw [List.getElem?_append_left (by rw [List.length_take]; omega),
      List.getElem?_take_of_lt (by omega)]

theorem placeAbove {height : Nat} (higher : block.height < height) : next.block? height = none := by
  refine noBlockAt.mpr (Or.inr ?_)
  rw [placeStop placed]
  exact higher

end

section
variable {blocks : List Block} (placed : segment.placeAll overflow blocks = .ok next)
include placed

theorem continuesStart (continues : Continues overflow segment blocks) :
    next.start = segment.start := by
  induction blocks generalizing segment with
  | nil =>
    cases placed
    rfl
  | cons block rest ih =>
    obtain ⟨middle, own, made⟩ := placeAllCons.mp placed
    obtain ⟨first, others⟩ := (continuesCons own).mp continues
    exact (ih made others).trans (placeStart own first)

theorem continuesBelow {height : Nat} (continues : Continues overflow segment blocks)
    (above : ∀ staged ∈ blocks, height < staged.height) :
    next.block? height = segment.block? height := by
  induction blocks generalizing segment with
  | nil =>
    cases placed
    rfl
  | cons head rest ih =>
    obtain ⟨middle, own, made⟩ := placeAllCons.mp placed
    obtain ⟨first, others⟩ := (continuesCons own).mp continues
    obtain ⟨under, higher⟩ := List.forall_mem_cons.mp above
    rw [ih made others higher]
    exact Option.ext fun found => by rw [placeBelow own under, and_iff_right first]

/- By the blocks that are still to be placed: if one of them stands at the height or below, it
decides what is found there, and else the segment does that they are placed in. -/
theorem placedAt {height : Nat} {block : Block} (found : next.block? height = some block) :
    (Continues overflow segment blocks ∧ (∀ staged ∈ blocks, height < staged.height) ∧
        segment.block? height = some block) ∨
      ∃ staged prev, lastAt height blocks = some staged ∧ block = staged.withPrev prev := by
  induction blocks generalizing segment with
  | nil =>
    cases placed
    exact Or.inl ⟨continuesNil overflow _, by simp, found⟩
  | cons head rest ih =>
    obtain ⟨middle, own, made⟩ := placeAllCons.mp placed
    rcases ih made with ⟨continues, above, there⟩ | ⟨staged, prev, last, same⟩
    · rcases Nat.lt_trichotomy height head.height with under | level | higher
      · obtain ⟨whole, old⟩ := (placeBelow own under).mp there
        exact Or.inl ⟨(continuesCons own).mpr ⟨whole, continues⟩,
          List.forall_mem_cons.mpr ⟨under, above⟩, old⟩
      · subst level
        obtain ⟨prev, top⟩ := placeAt own
        exact Or.inr ⟨head, prev, lastAtFirst above, Option.some.inj (there.symm.trans top)⟩
      · rw [placeAbove own higher] at there
        contradiction
    · exact Or.inr ⟨staged, prev, lastAtLater last [head], same⟩

theorem placedLast {last : Block} (ends : blocks.getLast? = some last) :
    next.stop = last.height + 1 ∧ ∃ prev, next.block? last.height = some (last.withPrev prev) := by
  obtain ⟨front, rfl⟩ := List.getLast?_eq_some_iff.mp ends
  rw [placeAllAppend, Results.bindOk] at placed
  obtain ⟨middle, _, made⟩ := placed
  obtain ⟨_, own, rest⟩ := placeAllCons.mp made
  cases rest
  exact ⟨placeStop own, placeAt own⟩

end

end

theorem topBlock {segment : Segment} {height : Nat} {block : Block}
    (stop : segment.stop = height + 1) (found : segment.block? height = some block) :
    segment.blocks.getLast? = some block := by
  obtain ⟨above, position⟩ := blockAt.mp found
  unfold Segment.stop at stop
  have last : segment.blocks.length - 1 = height - segment.start := by omega
  rw [List.getLast?_eq_getElem?, last, position]

theorem injectAllElsewhere {overflow : Overflow} {segment next : Segment}
    {txs : List (Nat × BlockTx)} {height : Nat} (ok : segment.injectAll overflow txs = .ok next)
    (elsewhere : ∀ entry ∈ txs, entry.1 ≠ height) :
    next.block? height = segment.block? height := by
  induction txs generalizing segment with
  | nil =>
    cases ok
    rfl
  | cons entry rest ih =>
    obtain ⟨target, tx⟩ := entry
    obtain ⟨middle, first, others⟩ := injectAllCons.mp ok
    obtain ⟨_, _, _, _, _, _, _, untouched⟩ := injectBlocks first
    obtain ⟨own, rest⟩ := List.forall_mem_cons.mp elsewhere
    rw [ih others rest, untouched height (Ne.symm own)]

theorem relinkThere {segment : Segment} {height : Nat} {old : Block}
    (found : segment.block? height = some old) :
    ∃ prev, segment.relink.block? height = some (old.withPrev prev) := by
  obtain ⟨above, position⟩ := blockAt.mp found
  obtain ⟨prev, there⟩ := linkedThere position
  exact ⟨prev, blockAt.mpr ⟨above, there⟩⟩

/- From the first block on: where both have the same blocks, both name the same predecessors. -/
theorem relinkKeeps {old segment : Segment} (linked : old.Linked)
    (start : segment.start = old.start) {height : Nat}
    (same : ∀ other ≤ height, segment.block? other = old.block? other) {block : Block}
    (found : old.block? height = some block) : segment.relink.block? height = some block := by
  obtain ⟨above, position⟩ := blockAt.mp found
  obtain ⟨index, rfl⟩ := Nat.exists_eq_add_of_le above
  rw [Nat.add_sub_cancel_left] at position
  have sameAt : ∀ other ≤ index, segment.blocks[other]? = old.blocks[other]? := by
    intro other within
    have there := same (old.start + other) (by omega)
    simpa [block?, start] using there
  clear same found above
  suffices kept : (Segment.linked Bytes32.zero segment.blocks)[index]? = some block by
    rw [blockAt]
    refine ⟨by show segment.start ≤ _; omega, ?_⟩
    show (Segment.linked Bytes32.zero segment.blocks)[old.start + index - segment.start]? = _
    rw [start, Nat.add_sub_cancel_left, kept]
  induction index generalizing block with
  | zero =>
    obtain ⟨prev, there⟩ : ∃ prev, (Segment.linked Bytes32.zero segment.blocks)[0]? =
        some (block.withPrev prev) := linkedThere ((sameAt 0 (Nat.le_refl 0)).trans position)
    have named : prev = Bytes32.zero := linkedFirst there
    rw [there, Block.withPrevSame ((linked.first block position).trans named.symm)]
  | succ index ih =>
    obtain ⟨inside, _⟩ := List.getElem?_eq_some_iff.mp position
    have below := List.getElem?_eq_getElem (Nat.lt_of_succ_lt inside)
    have parent := ih below fun other within => sameAt other (by omega)
    obtain ⟨prev, there⟩ : ∃ prev, (Segment.linked Bytes32.zero segment.blocks)[index + 1]? =
        some (block.withPrev prev) := linkedThere ((sameAt _ (Nat.le_refl _)).trans position)
    have named : prev = old.blocks[index].hash := linkedNext parent there
    rw [there, Block.withPrevSame ((linked.next index _ block below position).trans named.symm)]

end Segment

namespace SimChain
open Block (Filled)
open Segment (sentTo lastAt Breaks Continues)

section
variable {overflow : Overflow} {chain : SimChain} {tip : Nat} {merged : Segment}
  (committed : (chain.commit overflow tip).1 = some (.ok ()))
  (placed : chain.merged overflow = .ok merged)
include committed placed

theorem committedEnds : (chain.commit overflow tip).2.active.start = merged.start ∧
    (chain.commit overflow tip).2.active.stop = merged.stop := by
  obtain ⟨segment, put, ends⟩ := commitMerged committed placed
  obtain ⟨start, length, _⟩ := Segment.injectAllFills put
  have same : segment.relink.blocks.length = segment.blocks.length := Segment.linkedLength _ _
  rw [ends]
  refine ⟨start, ?_⟩
  show segment.start + segment.relink.blocks.length = merged.start + _
  rw [same, start, length]

theorem committedThere {height : Nat} {old : Block} (found : merged.block? height = some old) :
    ∃ new, (chain.commit overflow tip).2.block? height = some new ∧
      Filled old (sentTo height chain.stagedTxs) new := by
  obtain ⟨segment, put, ends⟩ := commitMerged committed placed
  obtain ⟨_, _, fills⟩ := Segment.injectAllFills put
  obtain ⟨fuller, kept, filled⟩ := fills height old found
  obtain ⟨prev, there⟩ := Segment.relinkThere kept
  rw [ends]
  exact ⟨_, there, Block.filledWithPrev filled prev⟩

theorem committedFrom {height : Nat} {new : Block}
    (found : (chain.commit overflow tip).2.block? height = some new) :
    ∃ old, merged.block? height = some old ∧ Filled old (sentTo height chain.stagedTxs) new := by
  obtain ⟨start, stop⟩ := committedEnds committed placed
  have inside : merged.block? height ≠ none := by
    rw [Ne, Segment.noBlockAt, ← start, ← stop, ← Segment.noBlockAt]
    show ¬ (chain.commit overflow tip).2.block? height = none
    simp [found]
  obtain ⟨old, there⟩ := Option.ne_none_iff_exists'.mp inside
  obtain ⟨other, here, filled⟩ := committedThere committed placed there
  cases Option.some.inj (found.symm.trans here)
  exact ⟨old, there, filled⟩

theorem committedSame (linked : chain.active.Linked)
    (continues : Continues overflow chain.active chain.stagedBlocks) {height : Nat} {old : Block}
    (above : ∀ block ∈ chain.stagedBlocks, height < block.height)
    (outside : ∀ entry ∈ chain.stagedTxs, height < entry.1)
    (found : chain.active.block? height = some old) :
    (chain.commit overflow tip).2.block? height = some old := by
  obtain ⟨segment, put, ends⟩ := commitMerged committed placed
  obtain ⟨start, _⟩ := Segment.injectAllFills put
  rw [ends]
  refine Segment.relinkKeeps linked (start.trans (Segment.continuesStart placed continues)) ?_ found
  intro other within
  have elsewhere : ∀ entry ∈ chain.stagedTxs, entry.1 ≠ other := fun entry member =>
    Nat.ne_of_gt (Nat.lt_of_le_of_lt within (outside entry member))
  have under : ∀ block ∈ chain.stagedBlocks, other < block.height := fun block member =>
    Nat.lt_of_le_of_lt within (above block member)
  exact (Segment.injectAllElsewhere put elsewhere).trans
    (Segment.continuesBelow placed continues under)

theorem committedTop {last : Block} (ends : chain.stagedBlocks.getLast? = some last) :
    ∃ new, (chain.commit overflow tip).2.active.blocks.getLast? = some new ∧
      (chain.commit overflow tip).2.block? last.height = some new ∧
      Filled last (sentTo last.height chain.stagedTxs) new := by
  obtain ⟨mergedStop, prev, top⟩ := Segment.placedLast placed ends
  obtain ⟨new, found, filled⟩ := committedThere committed placed top
  have stop := (committedEnds committed placed).2.trans mergedStop
  exact ⟨new, Segment.topBlock stop found, found, Block.filledOfWithPrev filled⟩

theorem committedStaged {before : Segment} {later : List Block}
    (made : before.placeAll overflow later = .ok merged) {height : Nat} {new : Block}
    (found : (chain.commit overflow tip).2.block? height = some new)
    (reached : ¬ (Continues overflow before later ∧ ∀ block ∈ later, height < block.height)) :
    ∃ block, lastAt height later = some block ∧
      Filled block (sentTo height chain.stagedTxs) new := by
  obtain ⟨old, there, filled⟩ := committedFrom committed placed found
  rcases Segment.placedAt made there with ⟨continues, above, _⟩ | ⟨block, prev, last, same⟩
  · exact absurd ⟨continues, above⟩ reached
  · rw [same] at filled
    exact ⟨block, last, Block.filledOfWithPrev filled⟩

end

theorem commitReorganizes (overflow : Overflow) (requests : List Request) (tip : Nat) {last : Block}
    (ends : (fresh.run overflow requests).stagedBlocks.getLast? = some last)
    (committed : ((fresh.run overflow requests).commit overflow tip).1 = some (.ok ())) :
    let chain := fresh.run overflow requests
    let staged := chain.stagedBlocks
    let after := (chain.commit overflow tip).2.active
    let Becomes (height : Nat) (block new : Block) : Prop :=
      after.block? height = some new ∧ Filled block (sentTo height chain.stagedTxs) new
    (∃ new, after.blocks.getLast? = some new ∧ Becomes last.height last new) ∧
    (Continues overflow chain.active staged → ∀ height,
      ((∀ block ∈ staged, height < block.height) →
        (∀ new, after.block? height = some new → ∃ old, chain.active.block? height = some old) ∧
        ∀ old, chain.active.block? height = some old → ∃ new, Becomes height old new ∧
          ((∀ entry ∈ chain.stagedTxs, height < entry.1) → new = old)) ∧
      ((∃ block ∈ staged, block.height ≤ height) → ∀ new, after.block? height = some new →
        ∃ block, lastAt height staged = some block ∧ Becomes height block new)) ∧
    (¬ Continues overflow chain.active staged → ∃ earlier block later before anew,
      staged = earlier ++ block :: later ∧ chain.active.placeAll overflow earlier = .ok before ∧
      Breaks overflow before block ∧ before.place overflow block = .ok anew ∧
      Continues overflow anew later ∧ after.start = block.height ∧
      ∀ height new, after.block? height = some new →
        ∃ own ∈ block :: later, lastAt height staged = some own ∧ Becomes height own new) ∧
    ((∀ block ∈ chain.active.blocks ++ staged, block.height < greatest64) →
      ∀ earlier later, staged = earlier ++ later → ∃ before,
        chain.active.placeAll overflow earlier = .ok before ∧
        before.stop64 overflow = .ok before.stop) := by
  intro chain staged after Becomes
  have valid : chain.Valid := runValid freshValid overflow requests
  obtain ⟨merged, _, placed, _⟩ := commitOk committed
  refine ⟨committedTop committed placed ends, fun continues height => ⟨fun above => ?_, ?_⟩,
    fun broken => ?_, fun low _ _ split => placedLow overflow valid low split⟩
  · have kept : merged.block? height = chain.active.block? height :=
      Segment.continuesBelow placed continues above
    refine ⟨fun new found => ?_, fun old found => ?_⟩
    · obtain ⟨old, there, _⟩ := committedFrom committed placed found
      exact ⟨old, kept.symm.trans there⟩
    · obtain ⟨new, there, filled⟩ := committedThere committed placed (kept.trans found)
      refine ⟨new, ⟨there, filled⟩, fun outside => ?_⟩
      have same := committedSame committed placed valid.linked continues above outside found
      exact Option.some.inj (there.symm.trans same)
  · intro reached new found
    obtain ⟨lower, member, low⟩ := reached
    obtain ⟨block, own, filled⟩ := committedStaged committed placed placed found
      fun h => absurd (h.2 lower member) (Nat.not_lt.mpr low)
    exact ⟨block, own, found, filled⟩
  · obtain ⟨earlier, block, later, before, anew, split, first, breaks, own, others, continues⟩ :=
      Segment.lastBreak placed broken
    have start : after.start = block.height := calc
      after.start = merged.start := (committedEnds committed placed).1
      _ = anew.start := Segment.continuesStart others continues
      _ = block.height := Segment.placeAnew own breaks
    refine ⟨earlier, block, later, before, anew, split, first, breaks, own, continues, start,
      fun height new found => ?_⟩
    obtain ⟨now, last, filled⟩ := committedStaged committed placed
      (Segment.placeAllCons.mpr ⟨anew, own, others⟩) found
      fun h => ((Segment.continuesCons own).mp h.1).1 breaks
    have lastOfAll : lastAt height staged = some now :=
      (congrArg (lastAt height) split).trans (Segment.lastAtLater last earlier)
    exact ⟨now, (Segment.lastAtMember last).1, lastOfAll, found, filled⟩

def replacing : List Request :=
  [.reset 1 "c2d6d0b4" "regtest", .stageFiller 1 0 3, .commit 3, .stageFiller 2 7 1,
    .stageTx 2 (Filler.coinbase 700)]

theorem replacedAboveFirst :
    ((fresh.run .ends replacing).commit .ends 2).1 = some (.ok ()) ∧ ∃ first last new,
      (fresh.run .ends replacing).block? 1 = some first ∧
      ((fresh.run .ends replacing).commit .ends 2).2.block? 1 = some first ∧
      (fresh.run .ends replacing).stagedBlocks.getLast? = some last ∧
      ((fresh.run .ends replacing).commit .ends 2).2.active.blocks.getLast? = some new ∧
      new.transactions.map BlockTx.data = [2, 700].map Filler.coinbase := by
  have committed : ((fresh.run .ends replacing).commit .ends 2).1 = some (.ok ()) := by rfl
  have staged : (fresh.run .ends replacing).stagedBlocks.map
      (fun block => (block.height, block.transactions.map BlockTx.data)) =
        [(2, [Filler.coinbase 2])] := by rfl
  have sent : (sentTo 2 (fresh.run .ends replacing).stagedTxs).map BlockTx.data =
      [Filler.coinbase 700] := by rfl
  have targets : (fresh.run .ends replacing).stagedTxs.map Prod.fst = [2] := by rfl
  have start : (fresh.run .ends replacing).active.start = 1 := by rfl
  have counted : (fresh.run .ends replacing).active.stop64 .ends = .ok 4 := by rfl
  have present : ((fresh.run .ends replacing).block? 1).isSome := by rfl
  obtain ⟨first, old⟩ := Option.isSome_iff_exists.mp present
  obtain ⟨last, one, parts⟩ := List.map_eq_singleton_iff.mp staged
  obtain ⟨level, own⟩ := Prod.mk.inj parts
  obtain ⟨entry, alone, target⟩ := List.map_eq_singleton_iff.mp targets
  have ends : (fresh.run .ends replacing).stagedBlocks.getLast? = some last := by
    rw [one]
    rfl
  have continues : Segment.Continues .ends (fresh.run .ends replacing).active
      (fresh.run .ends replacing).stagedBlocks := by
    rw [one, Segment.continuesCons (Segment.placeOk.mpr ⟨4, counted, rfl⟩),
      Segment.breaksCounted counted, start, level]
    exact ⟨by decide, Segment.continuesNil _ _⟩
  obtain ⟨⟨new, top, _, filled⟩, kept, _⟩ := commitReorganizes .ends replacing 2 ends committed
  obtain ⟨below, _⟩ := kept continues 1
  obtain ⟨_, survives⟩ := below (by simp [one, level])
  obtain ⟨other, ⟨found, _⟩, same⟩ := survives first old
  rw [same (by simp [alone, target])] at found
  refine ⟨committed, first, last, new, old, found, ends, top, ?_⟩
  rw [filled.transactions, level, List.map_append, own, sent]
  rfl

end SimChain

end WalletProxy
