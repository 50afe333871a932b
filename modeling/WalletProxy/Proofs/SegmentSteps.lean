import WalletProxy.Proofs.BlockFormat
import WalletProxy.Sim.Segment

/-! What one change of a segment can do, and what every change keeps: the heights follow one
another from the start, and each block is one that its own bytes are read as. That does not hang on
the end of the segment, which 64 bits may not hold. The links are not kept, a placed transaction
breaks them; relinking restores them from any blocks. -/
namespace WalletProxy
open Unsigned (Overflow greatest64)

namespace Block

theorem withPrevWellFormed {block : Block} (good : block.WellFormed) (prev : Bytes32) :
    (block.withPrev prev).WellFormed :=
  ⟨good.solution, good.count, good.parsed, good.height⟩

theorem appendOk {block fuller : Block} {tx : BlockTx} :
    block.append tx = .ok fuller ↔
      block.transactions.length < maxTransactions ∧
        fuller = { block with
          header := block.header.bumped, transactions := block.transactions ++ [tx] } := by
  unfold append
  split
  · rename_i full
    constructor
    · intro ok
      contradiction
    · intro h
      obtain ⟨room, _⟩ := h
      omega
  · rename_i room
    constructor
    · intro ok
      cases ok
      exact ⟨by omega, rfl⟩
    · intro h
      obtain ⟨_, rfl⟩ := h
      rfl

theorem appendWellFormed {block fuller : Block} {tx : BlockTx} (good : block.WellFormed)
    (parsed : BlockTx.ofBytes tx.data = .ok tx) (ok : block.append tx = .ok fuller) :
    fuller.WellFormed := by
  obtain ⟨room, rfl⟩ := appendOk.mp ok
  refine ⟨good.solution, ?_, ?_, ?_⟩
  · simp only [List.length_append, List.length_singleton]
    unfold maxTransactions at room
    unfold CompactSize.limit
    omega
  · exact List.forall_mem_append.mpr ⟨good.parsed, List.forall_mem_singleton.mpr parsed⟩
  · intro coinbase first
    obtain ⟨own, rest, same, declared⟩ := wellFormedFirst good
    rw [same] at first
    cases Option.some.inj first
    exact declared

end Block

namespace Segment

section
variable {overflow : Overflow} {segment : Segment}

theorem stop64Fits (fits : segment.stop ≤ greatest64) :
    segment.stop64 overflow = .ok segment.stop := by
  rw [stop64, Overflow.in64Fits fits]

theorem stop64Ok {stop : Nat} :
    segment.stop64 overflow = .ok stop ↔ overflow.in64 segment.stop = some stop := by
  unfold stop64
  cases overflow.in64 segment.stop with
  | none => simp
  | some own => simp

theorem stop64Le {stop : Nat} (counted : segment.stop64 overflow = .ok stop) :
    stop ≤ segment.stop :=
  Overflow.in64Le (stop64Ok.mp counted)

theorem stop64Error {fault : Fault} : segment.stop64 overflow = .error fault ↔
    fault = .overflow ∧ overflow = .ends ∧ greatest64 < segment.stop := by
  rw [← Overflow.in64None]
  unfold stop64
  cases overflow.in64 segment.stop with
  | none => simp [eq_comm]
  | some own => simp

theorem placeUpToCases {stop : Nat} (low : stop ≤ segment.stop) (block : Block) :
    ¬ (segment.start < block.height ∧ block.height ≤ stop) ∧
        segment.placeUpTo stop block = ⟨block.height, [block]⟩ ∨
      ∃ tip, (segment.start < block.height ∧ block.height ≤ stop) ∧
        segment.blocks[block.height - segment.start - 1]? = some tip ∧
        segment.placeUpTo stop block = ⟨segment.start,
          segment.blocks.take (block.height - segment.start) ++ [block.withPrev tip.hash]⟩ := by
  by_cases within : segment.start < block.height ∧ block.height ≤ stop
  · right
    obtain ⟨above, reached⟩ := within
    have size : block.height - segment.start ≤ segment.blocks.length := by
      unfold Segment.stop at low
      omega
    have kept : segment.below stop block.height =
        segment.blocks.take (block.height - segment.start) := by
      unfold below
      exact if_pos ⟨by omega, reached⟩
    have position : block.height - segment.start - 1 < segment.blocks.length := by omega
    refine ⟨segment.blocks[block.height - segment.start - 1], ⟨above, reached⟩,
      List.getElem?_eq_getElem position, ?_⟩
    have tip : (segment.below stop block.height).getLast? =
        some segment.blocks[block.height - segment.start - 1] := by
      rw [kept, List.getLast?_take, if_neg (by omega), List.getElem?_eq_getElem position]
      rfl
    rw [placeUpTo, tip, kept]
  · left
    refine ⟨within, ?_⟩
    have kept : segment.below stop block.height = [] := by
      unfold below
      split
      · rename_i reached
        have same : block.height - segment.start = 0 := by omega
        rw [same, List.take_zero]
      · rfl
    rw [placeUpTo, kept]
    rfl

theorem placeOk {next : Segment} {block : Block} :
    segment.place overflow block = .ok next ↔
      ∃ stop, segment.stop64 overflow = .ok stop ∧ segment.placeUpTo stop block = next := by
  simp only [place, Results.bindOk, Results.pureOk]

theorem placeCases {next : Segment} {block : Block}
    (placed : segment.place overflow block = .ok next) :
    ∃ stop, segment.stop64 overflow = .ok stop ∧ stop ≤ segment.stop ∧
      (¬ (segment.start < block.height ∧ block.height ≤ stop) ∧ next = ⟨block.height, [block]⟩ ∨
        ∃ tip, (segment.start < block.height ∧ block.height ≤ stop) ∧
          segment.blocks[block.height - segment.start - 1]? = some tip ∧
          next = ⟨segment.start,
            segment.blocks.take (block.height - segment.start) ++ [block.withPrev tip.hash]⟩) := by
  obtain ⟨stop, counted, rfl⟩ := placeOk.mp placed
  have low := stop64Le counted
  exact ⟨stop, counted, low, placeUpToCases low block⟩

theorem placeAllCons {next : Segment} {block : Block} {rest : List Block} :
    segment.placeAll overflow (block :: rest) = .ok next ↔
      ∃ middle, segment.place overflow block = .ok middle ∧
        middle.placeAll overflow rest = .ok next := by
  simp only [placeAll, Results.bindOk]

theorem placeAllAppend (overflow : Overflow) (segment : Segment) (first second : List Block) :
    segment.placeAll overflow (first ++ second) =
      segment.placeAll overflow first >>= fun next => next.placeAll overflow second := by
  induction first generalizing segment with
  | nil => rfl
  | cons block rest ih =>
    show segment.place overflow block >>= (fun next => next.placeAll overflow (rest ++ second)) =
      (segment.place overflow block >>= fun next => next.placeAll overflow rest) >>= _
    cases segment.place overflow block with
    | error fault => rfl
    | ok next => exact ih next

theorem injectUpToOk {next : Segment} {stop height : Nat} {tx : BlockTx} :
    segment.injectUpTo stop height tx = .ok next ↔
      height < stop ∧ ∃ block fuller, segment.block? height = some block ∧
        block.append tx = .ok fuller ∧
        next = { segment with blocks := segment.blocks.set (height - segment.start) fuller } := by
  unfold injectUpTo
  by_cases under : height < stop
  · rw [if_pos under, and_iff_right under]
    cases found : segment.block? height with
    | none => simp
    | some block =>
      simp only [Results.bindOk, Results.mapErrorOk, Results.pureOk]
      constructor
      · intro h
        obtain ⟨fuller, appended, rfl⟩ := h
        exact ⟨block, fuller, rfl, appended, rfl⟩
      · intro h
        obtain ⟨_, fuller, same, appended, rfl⟩ := h
        cases same
        exact ⟨fuller, appended, rfl⟩
  · simp [under]

theorem injectOk {next : Segment} {height : Nat} {tx : BlockTx} :
    segment.inject overflow height tx = .ok next ↔
      ∃ stop, segment.stop64 overflow = .ok stop ∧ height < stop ∧
        ∃ block fuller, segment.block? height = some block ∧ block.append tx = .ok fuller ∧
          next = { segment with
            blocks := segment.blocks.set (height - segment.start) fuller } := by
  simp only [inject, Results.bindOk, injectUpToOk]

theorem injectAllCons {next : Segment} {height : Nat} {tx : BlockTx}
    {rest : List (Nat × BlockTx)} :
    segment.injectAll overflow ((height, tx) :: rest) = .ok next ↔
      ∃ middle, segment.inject overflow height tx = .ok middle ∧
        middle.injectAll overflow rest = .ok next := by
  simp only [injectAll, Results.bindOk]

end

theorem blockAt {segment : Segment} {height : Nat} {block : Block} :
    segment.block? height = some block ↔
      segment.start ≤ height ∧ segment.blocks[height - segment.start]? = some block := by
  unfold block?
  split
  · rename_i above
    simp [above]
  · rename_i under
    simp [under]

theorem linkedAt {prev : Bytes32} {blocks : List Block} {index : Nat} {block : Block}
    (found : (linked prev blocks)[index]? = some block) :
    ∃ old, blocks[index]? = some old ∧ block = old.withPrev block.header.prev := by
  induction blocks generalizing prev index with
  | nil => simp [linked] at found
  | cons head rest ih =>
    cases index with
    | zero =>
      cases Option.some.inj found
      exact ⟨head, rfl, rfl⟩
    | succ index => exact ih found

theorem linkedNil {prev : Bytes32} {blocks : List Block} (none : linked prev blocks = []) :
    blocks = [] := by
  cases blocks with
  | nil => rfl
  | cons head rest => contradiction

theorem linkedFirst {prev : Bytes32} {blocks : List Block} {block : Block}
    (found : (linked prev blocks)[0]? = some block) : block.header.prev = prev := by
  cases blocks with
  | nil => simp [linked] at found
  | cons head rest =>
    cases Option.some.inj found
    rfl

theorem linkedNext {prev : Bytes32} {blocks : List Block} {index : Nat} {parent child : Block}
    (below : (linked prev blocks)[index]? = some parent)
    (above : (linked prev blocks)[index + 1]? = some child) :
    child.header.prev = parent.hash := by
  induction blocks generalizing prev index with
  | nil => simp [linked] at below
  | cons head rest ih =>
    cases index with
    | zero =>
      cases Option.some.inj below
      exact linkedFirst above
    | succ index => exact ih below above

structure Sound (segment : Segment) : Prop where
  start : segment.blocks = [] → segment.start = 0
  heights : ∀ index block, segment.blocks[index]? = some block →
    block.height = segment.start + index
  wellFormed : ∀ block ∈ segment.blocks, block.WellFormed

structure Linked (segment : Segment) : Prop where
  first : ∀ block, segment.blocks[0]? = some block → block.header.prev = Bytes32.zero
  next : ∀ index parent child, segment.blocks[index]? = some parent →
    segment.blocks[index + 1]? = some child → child.header.prev = parent.hash

theorem emptySound : empty.Sound := by
  refine ⟨fun _ => rfl, ?_, ?_⟩
  · intro index block found
    simp [empty] at found
  · intro block member
    simp [empty] at member

theorem emptyLinked : empty.Linked := by
  constructor
  · intro block found
    simp [empty] at found
  · intro index parent child below above
    simp [empty] at below

section
variable {overflow : Overflow} {segment next : Segment} (sound : segment.Sound)
include sound

theorem placeSound {block : Block} (good : block.WellFormed)
    (placed : segment.place overflow block = .ok next) : next.Sound := by
  obtain ⟨stop, _, low, ⟨_, rfl⟩ | ⟨tip, ⟨above, reached⟩, _, rfl⟩⟩ := placeCases placed
  · refine ⟨nofun, ?_, ?_⟩
    · intro index other found
      cases index with
      | zero =>
        cases Option.some.inj found
        rfl
      | succ index => simp at found
    · intro other member
      cases List.mem_singleton.mp member
      exact good
  · have size : (segment.blocks.take (block.height - segment.start)).length =
        block.height - segment.start := by
      rw [List.length_take]
      unfold Segment.stop at low
      omega
    -- A kept block, the placed one, or a position behind it, where there is none.
    refine ⟨by simp, ?_, ?_⟩
    · intro index other found
      rcases Nat.lt_trichotomy index (block.height - segment.start) with old | last | beyond
      · rw [List.getElem?_append_left (by omega), List.getElem?_take_of_lt old] at found
        exact sound.heights index other found
      · rw [List.getElem?_append_right (by omega), size, last, Nat.sub_self] at found
        cases Option.some.inj found
        show block.height = segment.start + index
        omega
      · rw [List.getElem?_eq_none] at found
        · contradiction
        · simp only [List.length_append, size, List.length_singleton]
          omega
    · have kept : ∀ other ∈ segment.blocks.take (block.height - segment.start),
          other.WellFormed := fun other old => sound.wellFormed other (List.mem_of_mem_take old)
      exact List.forall_mem_append.mpr
        ⟨kept, List.forall_mem_singleton.mpr (Block.withPrevWellFormed good tip.hash)⟩

theorem placeAllSound {blocks : List Block} (good : ∀ block ∈ blocks, block.WellFormed)
    (placed : segment.placeAll overflow blocks = .ok next) : next.Sound := by
  induction blocks generalizing segment with
  | nil =>
    cases placed
    exact sound
  | cons block rest ih =>
    obtain ⟨middle, first, others⟩ := placeAllCons.mp placed
    obtain ⟨head, tail⟩ := List.forall_mem_cons.mp good
    exact ih (placeSound sound head first) tail others

theorem injectSound {height : Nat} {tx : BlockTx} (parsed : BlockTx.ofBytes tx.data = .ok tx)
    (ok : segment.inject overflow height tx = .ok next) : next.Sound := by
  obtain ⟨_, _, _, block, fuller, found, appended, rfl⟩ := injectOk.mp ok
  obtain ⟨_, position⟩ := blockAt.mp found
  have member : block ∈ segment.blocks := List.mem_of_getElem? position
  have sameHeight : fuller.height = block.height := by
    obtain ⟨_, rfl⟩ := Block.appendOk.mp appended
    rfl
  -- Only the block at the height changes, and it keeps the height and the first transaction.
  refine ⟨fun none => sound.start (by simpa using none), ?_, ?_⟩
  · intro index other there
    by_cases same : height - segment.start = index
    · subst same
      rw [List.getElem?_set_self (List.getElem?_eq_some_iff.mp position).1] at there
      cases Option.some.inj there
      exact sameHeight.trans (sound.heights _ block position)
    · rw [List.getElem?_set_ne same] at there
      exact sound.heights index other there
  · intro other there
    rcases List.mem_or_eq_of_mem_set there with old | rfl
    · exact sound.wellFormed other old
    · exact Block.appendWellFormed (sound.wellFormed block member) parsed appended

theorem injectAllSound {txs : List (Nat × BlockTx)}
    (parsed : ∀ entry ∈ txs, BlockTx.ofBytes entry.2.data = .ok entry.2)
    (ok : segment.injectAll overflow txs = .ok next) : next.Sound := by
  induction txs generalizing segment with
  | nil =>
    cases ok
    exact sound
  | cons entry rest ih =>
    obtain ⟨middle, first, others⟩ := injectAllCons.mp ok
    obtain ⟨head, tail⟩ := List.forall_mem_cons.mp parsed
    exact ih (injectSound sound head first) tail others

theorem relinkSound : segment.relink.Sound := by
  refine ⟨fun none => sound.start (linkedNil none), ?_, ?_⟩
  · intro index block found
    obtain ⟨old, there, same⟩ := linkedAt found
    rw [same]
    exact sound.heights index old there
  · intro block member
    obtain ⟨index, found⟩ := List.mem_iff_getElem?.mp member
    obtain ⟨old, there, same⟩ := linkedAt found
    rw [same]
    exact Block.withPrevWellFormed (sound.wellFormed old (List.mem_of_getElem? there)) _

end

theorem relinkLinked (segment : Segment) : segment.relink.Linked :=
  ⟨fun _ found => linkedFirst found, fun _ _ _ below above => linkedNext below above⟩

end Segment

end WalletProxy
