import WalletProxy.Follower
import WalletProxy.Proofs.WindowSteps

/-! What one turn of the follower makes of the window, when all that the node answers to the
question for a block depends on the height alone. -/
namespace WalletProxy.Follower

variable {ν : Type}

def verified (fetch : Nat → Except NodeError (Option Block)) (window : Window) : Window :=
  match window.tip? with
  | none => window
  | some (height, hash) => if isStale hash (fetch height) then window.pop.2 else window

def extended (block : CompactBlock) (window : Window) : Pace × Window :=
  if window.extends? block then (.again, { window with blocks := window.blocks ++ [block] })
  else if window.blocks.isEmpty then (.rest, window)
  else (.again, window.pop.2)

def moved (fetch : Nat → Except NodeError (Option Block)) (window : Window) : Pace × Window :=
  match fetch window.next with
  | .error _ => (.rest, window)
  | .ok none => (.rest, verified fetch window)
  | .ok (some block) =>
      match block.compact with
      | .error _ => (.rest, window)
      | .ok compact => extended compact window

inductive Moving (fetch : Nat → Except NodeError (Option Block)) (window : Window) :
    Pace × Window → Prop where
  | kept : Moving fetch window (.rest, window)
  | stale : Moving fetch window (.rest, window.pop.2)
  | taken {block : Block} {compacted : CompactBlock} (given : fetch window.next = .ok (some block))
      (ok : block.compact = .ok compacted) (follows : window.extends? compacted = true) :
      Moving fetch window (.again, { window with blocks := window.blocks ++ [compacted] })
  | dropped {block : Block} {compacted : CompactBlock}
      (given : fetch window.next = .ok (some block)) (ok : block.compact = .ok compacted)
      (refused : window.extends? compacted = false) (nonempty : window.blocks.isEmpty = false) :
      Moving fetch window (.again, window.pop.2)

theorem movedMoving (fetch : Nat → Except NodeError (Option Block)) (window : Window) :
    Moving fetch window (moved fetch window) := by
  unfold moved
  cases asked : fetch window.next with
  | error fault => exact .kept
  | ok found =>
    cases found with
    | none =>
      unfold verified
      dsimp only
      split
      · exact .kept
      · split
        · exact .stale
        · exact .kept
    | some block =>
      dsimp only
      cases ok : block.compact with
      | error fault => exact .kept
      | ok compacted =>
        dsimp only
        unfold extended
        split
        · rename_i follows
          exact .taken asked ok follows
        · rename_i refused
          split
          · exact .kept
          · rename_i nonempty
            exact .dropped asked ok (Bool.eq_false_iff.mpr refused) (Bool.eq_false_iff.mpr nonempty)

theorem movedCases (fetch : Nat → Except NodeError (Option Block)) (window : Window) :
    (moved fetch window).2 = window ∨ (moved fetch window).2 = window.pop.2 ∨
      ∃ block compacted, fetch window.next = .ok (some block) ∧
        block.compact = .ok compacted ∧ window.extends? compacted = true ∧
        (moved fetch window).2 = { window with blocks := window.blocks ++ [compacted] } := by
  have moving := movedMoving fetch window
  generalize moved fetch window = result at moving ⊢
  cases moving with
  | kept => exact Or.inl rfl
  | stale => exact Or.inr (Or.inl rfl)
  | taken given ok follows => exact Or.inr (Or.inr ⟨_, _, given, ok, follows, rfl⟩)
  | dropped => exact Or.inr (Or.inl rfl)

theorem movedSound (fetch : Nat → Except NodeError (Option Block)) {window : Window}
    (sound : window.Sound) : (moved fetch window).2.Sound := by
  rcases movedCases fetch window with same | popped | ⟨block, compacted, _, _, follows, grown⟩
  · rw [same]
    exact sound
  · rw [popped]
    exact Window.popSound sound
  · rw [grown]
    exact Window.extendedSound sound follows

section
variable {fetch : Nat → Except NodeError (Option Block)} {window : Window}

theorem movedOver {block : Block} {compacted : CompactBlock}
    (given : fetch window.next = .ok (some block)) (ok : block.compact = .ok compacted)
    (follows : window.extends? compacted = true) :
    moved fetch window = (.again, { window with blocks := window.blocks ++ [compacted] }) := by
  simp only [moved, given, ok, extended, follows, if_true]

theorem movedTakes {block : Block} {compacted : CompactBlock}
    (given : fetch window.next = .ok (some block)) (ok : block.compact = .ok compacted)
    (follows : window.extends? compacted = true) :
    (moved fetch window).2 = { window with blocks := window.blocks ++ [compacted] } :=
  congrArg Prod.snd (movedOver given ok follows)

theorem movedBack {block : Block} {compacted : CompactBlock}
    (given : fetch window.next = .ok (some block)) (ok : block.compact = .ok compacted)
    (refused : window.extends? compacted = false) (nonempty : window.blocks.isEmpty = false) :
    moved fetch window = (.again, window.pop.2) := by
  simp only [moved, given, ok, extended, refused, nonempty, if_false, Bool.false_eq_true]

theorem movedEnded (ended : fetch window.next = .ok none) :
    (moved fetch window).2 = window ↔ ∀ last, window.blocks.getLast? = some last →
      isStale last.hash (fetch last.height) = false := by
  unfold moved verified Window.tip?
  rw [ended]
  cases tip : window.blocks.getLast? with
  | none => simp
  | some last =>
    dsimp only [Option.map_some]
    cases stale : isStale last.hash (fetch last.height) with
    | false => simp [stale]
    | true => simp [stale, Window.popShorter tip]

theorem currentOk {hash : Bytes} {found : Option Block} :
    isStale hash (.ok found) = false ↔ ∃ block, found = some block ∧ block.hash.val = hash := by
  cases found with
  | none => simp [isStale]
  | some block => simp [isStale]

end

/-- A node that, as long as it is in certain states, answers for blocks by their height alone and
stays in these states. -/
structure Steady (answer : Call → ν → Reply × ν) (states : ν → Prop)
    (fetch : Nat → Except NodeError (Option Block)) : Prop where
  stays : ∀ node height, states node → states (answer (Node.blockCall height) node).2
  reads : ∀ node height, states node →
    Node.blockOfReply (answer (Node.blockCall height) node).1 = fetch height

def turned (fetch : Nat → Except NodeError (Option Block)) (window : Window) : Window :=
  (moved fetch window).2

section
variable (answer : Call → ν → Reply × ν) (store : Store) (node : ν)

theorem lookRuns (view : Store → α) (next : α → Job Store Empty β) :
    Job.run answer (Job.look view >>= next) store node =
      Job.run answer (next (view store)) store node := rfl

theorem onWindowRuns (update : Window → α × Window) (next : α → Job Store Empty β) :
    Job.run answer (onWindow update >>= next) store node =
      Job.run answer (next (update store.window).1)
        { store with window := (update store.window).2 } node := rfl

theorem extendRuns (block : CompactBlock) :
    Job.run answer (extend (ι := Empty) block) store node =
      ⟨(extended block store.window).1, [],
        { store with window := (extended block store.window).2 }, node⟩ := by
  unfold extend extended
  rw [onWindowRuns]
  unfold Window.push
  split
  · rfl
  · rw [if_neg (by simp), onWindowRuns]
    unfold Window.pop
    cases blocks : store.window.blocks with
    | nil =>
      have same : (⟨store.window.first, []⟩ : Window) = store.window := by rw [← blocks]
      show (⟨_, _, { store with window := ⟨store.window.first, []⟩ }, _⟩ : Job.Outcome _ _ _ _) = _
      rw [same]
      rfl
    | cons first rest => rfl

end

section
variable {answer : Call → ν → Reply × ν} {states : ν → Prop}
  {fetch : Nat → Except NodeError (Option Block)} (steady : Steady answer states fetch)
  {node : ν} (here : states node) (store : Store)
include steady here

theorem fetchRuns (height : Nat)
    (next : Except NodeError (Option Block) → Job Store Empty α) :
    ∃ later, states later ∧
      Job.run answer (Node.fetchBlock height >>= next) store node =
        Job.run answer (next (fetch height)) store later := by
  refine ⟨(answer (Node.blockCall height) node).2, steady.stays node height here, ?_⟩
  rw [← steady.reads node height here]
  rfl

theorem verifyRuns (next : Job Store Empty α) :
    ∃ later, states later ∧ Job.run answer (verify >>= fun _ => next) store node =
      Job.run answer next { store with window := verified fetch store.window } later := by
  unfold verify verified
  rw [bind_assoc, lookRuns]
  cases store.window.tip? with
  | none => exact ⟨node, here, rfl⟩
  | some tip =>
    obtain ⟨height, hash⟩ := tip
    dsimp only
    rw [bind_assoc]
    obtain ⟨later, there, runs⟩ := fetchRuns steady here store height _
    refine ⟨later, there, runs.trans ?_⟩
    cases isStale hash (fetch height) with
    | true => rfl
    | false => rfl

theorem turnRuns :
    ∃ later, states later ∧ Job.run answer (turn (ι := Empty)) store node =
      ⟨(moved fetch store.window).1, [],
        { store with window := (moved fetch store.window).2 }, later⟩ := by
  unfold turn moved
  rw [lookRuns]
  obtain ⟨later, there, runs⟩ := fetchRuns steady here store store.window.next _
  rw [runs]
  cases fetch store.window.next with
  | error fault => exact ⟨later, there, rfl⟩
  | ok found =>
    cases found with
    | none =>
      obtain ⟨last, settled, ends⟩ := verifyRuns steady there store (pure Pace.rest)
      exact ⟨last, settled, ends⟩
    | some block =>
      dsimp only
      cases block.compact with
      | error fault => exact ⟨later, there, rfl⟩
      | ok compact => exact ⟨later, there, extendRuns answer store later compact⟩

end

end WalletProxy.Follower
