import Mathlib.Dynamics.PeriodicPts.Defs
import WalletProxy.Proofs.FillerBlocks
import WalletProxy.Proofs.FollowerSettles
import WalletProxy.Proofs.HeightBounds

/-! How many turns the follower takes before it sleeps. A turn that takes a block over or drops one
is followed by the next at once. The follower first drops, then takes over, and sleeps in the end,
unless the node gives a block that it takes over and right above it one that does not follow: then
it drops the block, takes it over again, and so on for ever. -/
namespace WalletProxy.Follower

def Given (fetch : Nat → Except NodeError (Option Block)) (height : Nat) (block : CompactBlock) :
    Prop :=
  ∃ full, fetch height = .ok (some full) ∧ full.compact = .ok block

/-- The node gives a block that follows the window, and right above it one that does not follow
this block. -/
structure TurnedBack (fetch : Nat → Except NodeError (Option Block)) (window : Window)
    (block above : CompactBlock) : Prop where
  given : Given fetch window.next block
  follows : window.extends? block = true
  next : Given fetch (window.next + 1) above
  refused : ¬ (above.height = block.height + 1 ∧ above.prevHash = block.hash)

def Fits (fetch : Nat → Except NodeError (Option Block)) : Prop :=
  ∀ height block above, Given fetch height block → block.height = height →
    Given fetch (height + 1) above → above.height = height + 1 ∧ above.prevHash = block.hash

def Restless (fetch : Nat → Except NodeError (Option Block)) (window : Window) : Prop :=
  ∀ count, (moved fetch ((turned fetch)^[count] window)).1 = .again

def taking (window : Window) (block : CompactBlock) : Window :=
  { window with blocks := window.blocks ++ [block] }

section
variable {window : Window} {block above : CompactBlock}

theorem takingNext : (taking window block).next = window.next + 1 := by
  simp only [taking, Window.next, List.length_append, List.length_singleton, Nat.add_assoc]

theorem takingPop : (taking window block).pop.2 = window := by
  simp only [taking, Window.pop, List.dropLast_concat]

theorem takingExtends (follows : window.extends? block = true) :
    (taking window block).extends? above = true ↔
      above.height = block.height + 1 ∧ above.prevHash = block.hash := by
  obtain ⟨height, _⟩ := Window.extendsOk.mp follows
  rw [Window.extendsOk, takingNext, height]
  simp only [taking, List.getLast?_concat, Option.some.injEq, forall_eq', eq_comm]

end

section
variable {fetch : Nat → Except NodeError (Option Block)} {window : Window}
  {block above : CompactBlock}

theorem restlessNext (restless : Restless fetch window) : Restless fetch (turned fetch window) :=
  fun count => restless (count + 1)

theorem turnedBackRestless (back : TurnedBack fetch window block above) :
    Restless fetch window := by
  have taken : moved fetch window = (.again, taking window block) := by
    obtain ⟨full, asked, ok⟩ := back.given
    exact movedOver asked ok back.follows
  have dropped : moved fetch (taking window block) = (.again, window) := by
    obtain ⟨full, asked, ok⟩ := back.next
    rw [← @takingNext window block] at asked
    have refused : (taking window block).extends? above = false :=
      Bool.eq_false_iff.mpr fun follows => back.refused ((takingExtends back.follows).mp follows)
    rw [movedBack asked ok refused (by simp [taking]), takingPop]
  have cycle : Function.IsPeriodicPt (turned fetch) 2 window := by
    show turned fetch (turned fetch window) = window
    simp only [turned, taken, dropped]
  intro count
  rw [← cycle.iterate_mod_apply count]
  rcases Nat.mod_two_eq_zero_or_one count with even | odd
  · rw [even, Function.iterate_zero_apply, taken]
  · rw [odd, Function.iterate_one, turned, taken, dropped]

end

section
variable {fetch : Nat → Except NodeError (Option Block)}
  (bounded : ∀ height block, Given fetch height block → block.height ≤ Unsigned.greatest64)
include bounded

/- Once a block is taken over, the window grows until a block is refused; and no block declares a
height beyond 64 bits. -/
theorem takenTurnsBack (room : Nat) : ∀ (window : Window) (block : CompactBlock),
    Unsigned.greatest64 - window.next = room → Given fetch window.next block →
      window.extends? block = true → Restless fetch window →
      ∃ count block above, TurnedBack fetch ((turned fetch)^[count] window) block above := by
  induction room using Nat.strongRecOn with
  | ind room ih =>
    intro window block left given follows restless
    have grown : turned fetch window = taking window block := by
      obtain ⟨full, asked, ok⟩ := given
      exact congrArg Prod.snd (movedOver asked ok follows)
    have later := restlessNext restless
    rw [grown] at later
    have again : (moved fetch (taking window block)).1 = .again := later 0
    have moving := movedMoving fetch (taking window block)
    generalize moved fetch (taking window block) = result at moving again
    -- The next turn goes on as well, so it takes one more block over or drops this one again.
    cases moving with
    | kept => contradiction
    | stale => contradiction
    | @taken full above asked ok joins =>
      have there : Given fetch (taking window block).next above := ⟨full, asked, ok⟩
      obtain ⟨height, _⟩ := Window.extendsOk.mp joins
      have bound := bounded _ above there
      rw [height, takingNext] at bound
      obtain ⟨count, back⟩ := ih (Unsigned.greatest64 - (taking window block).next)
        (by rw [takingNext]; omega) (taking window block) above rfl there joins later
      refine ⟨count + 1, ?_⟩
      rw [Function.iterate_succ_apply, grown]
      exact back
    | @dropped full above asked ok refused _ =>
      rw [takingNext] at asked
      refine ⟨0, block, above, given, follows, ⟨full, asked, ok⟩, ?_⟩
      intro joins
      rw [(takingExtends follows).mpr joins] at refused
      contradiction

theorem restlessTurnsBack (size : Nat) : ∀ window : Window, window.blocks.length = size →
    Restless fetch window →
      ∃ count block above, TurnedBack fetch ((turned fetch)^[count] window) block above := by
  induction size using Nat.strongRecOn with
  | ind size ih =>
    intro window long restless
    have again : (moved fetch window).1 = .again := restless 0
    have moving := movedMoving fetch window
    generalize result : moved fetch window = outcome at moving again
    cases moving with
    | kept => contradiction
    | stale => contradiction
    | @taken full block asked ok follows =>
      exact takenTurnsBack bounded _ window block rfl ⟨full, asked, ok⟩ follows restless
    | dropped asked ok refused nonempty =>
      have popped : turned fetch window = window.pop.2 := congrArg Prod.snd result
      have shorter : window.pop.2.blocks.length < size := by
        have some : 0 < window.blocks.length := List.length_pos_iff.mpr (by simpa using nonempty)
        show window.blocks.dropLast.length < size
        rw [List.length_dropLast]
        omega
      have later := restlessNext restless
      rw [popped] at later
      obtain ⟨count, back⟩ := ih _ shorter window.pop.2 rfl later
      refine ⟨count + 1, ?_⟩
      rw [Function.iterate_succ_apply, popped]
      exact back

theorem restsIff (window : Window) :
    (∃ count, (moved fetch ((turned fetch)^[count] window)).1 = .rest) ↔
      ¬ ∃ count block above,
        (∀ earlier < count, (moved fetch ((turned fetch)^[earlier] window)).1 = .again) ∧
          TurnedBack fetch ((turned fetch)^[count] window) block above := by
  constructor
  · intro rests turnsBack
    obtain ⟨last, rest⟩ := rests
    obtain ⟨count, block, above, before, back⟩ := turnsBack
    have again : (moved fetch ((turned fetch)^[last] window)).1 = .again := by
      rcases Nat.lt_or_ge last count with earlier | later
      · exact before last earlier
      · rw [← Nat.sub_add_cancel later, Function.iterate_add_apply]
        exact turnedBackRestless back (last - count)
    rw [rest] at again
    contradiction
  · intro never
    by_contra restful
    have restless : Restless fetch window := by
      intro count
      cases pace : (moved fetch ((turned fetch)^[count] window)).1 with
      | again => rfl
      | rest => exact absurd ⟨count, pace⟩ restful
    obtain ⟨count, block, above, back⟩ := restlessTurnsBack bounded _ window rfl restless
    exact never ⟨count, block, above, fun earlier _ => restless earlier, back⟩

end

theorem chainFits {chain : Segment} (sound : chain.Sound) (joined : chain.Joined) :
    Fits fun height => .ok (chain.block? height) := by
  intro height block above given own next
  obtain ⟨lower, there, ok⟩ := given
  obtain ⟨upper, further, upperOk⟩ := next
  obtain ⟨reached, position⟩ := Segment.blockAt.mp (Except.ok.inj there)
  obtain ⟨_, beyond⟩ := Segment.blockAt.mp (Except.ok.inj further)
  obtain ⟨_, hash, _⟩ := Block.compactOk ok
  obtain ⟨aboveHeight, _, named⟩ := Block.compactOk upperOk
  have place : height + 1 - chain.start = height - chain.start + 1 := by omega
  have declared := sound.heights _ upper beyond
  rw [place] at beyond
  refine ⟨by omega, ?_⟩
  rw [named, hash, joined _ lower upper position beyond]

section
variable {ν : Type} {answer : Call → ν → Reply × ν} {replies : Nat → Reply}

def found (replies : Nat → Reply) (height : Nat) : Except NodeError (Option Block) :=
  Node.blockOfReply (replies height)

def paceAfter (answer : Call → ν → Reply × ν) (count : Nat) (store : Store) (node : ν) : Pace :=
  let reached := turns answer count store node
  (Job.run answer (turn (ι := Empty)) reached.1 reached.2).value

theorem foundWellFormed {height : Nat} {block : Block}
    (read : found replies height = .ok (some block)) : block.WellFormed := by
  unfold found Node.blockOfReply at read
  split at read
  · split at read <;> cases read
  · split at read
    · cases read
    · split at read
      · cases read
      · rename_i parsed
        cases read
        exact (Block.ofBytesWellFormed parsed).1
  · cases read

theorem foundBounded {height : Nat} {block : CompactBlock}
    (given : Given (found replies) height block) : block.height ≤ Unsigned.greatest64 := by
  obtain ⟨full, read, ok⟩ := given
  rw [(Block.compactOk ok).1]
  exact Block.heightBound (foundWellFormed read)

section
variable (answered : ∀ node height, (answer (Node.blockCall height) node).1 = replies height)
include answered

theorem answeredSteady : Steady answer (fun _ => True) (found replies) := by
  constructor
  · intro node height _
    trivial
  · intro node height _
    rw [answered, found]

theorem paceMoved (count : Nat) (store : Store) (node : ν) :
    paceAfter answer count store node =
      (moved (found replies) ((turned (found replies))^[count] store.window)).1 := by
  have steady := answeredSteady answered
  obtain ⟨_, _, runs⟩ := @turnRuns ν answer _ _ steady (turns answer count store node).2 trivial
    (turns answer count store node).1
  rw [paceAfter, runs, turnsSteady steady]

end

def straying (block : Block) (_ : Call) (node : Unit) : Reply × Unit :=
  (.ok (.text (Hex.encode block.write)), node)

def emptyStore : Store := { now := 0, window := .startingAt 1, mempool := .fresh 2000 }

end

end WalletProxy.Follower
