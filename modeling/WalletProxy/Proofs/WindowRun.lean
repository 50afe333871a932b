import WalletProxy.Proofs.WindowSteps

/-! Runs of the window: the requests of all its callers, in the order in which they take effect. A
caller may act on what it saw some requests ago, and push any block; whatever is asked for, the
window stays a run of blocks that name one another. -/
namespace WalletProxy.Window

inductive Request where
  | reset (first : Nat)
  | push (block : CompactBlock)
  | pop
  | get (height : Nat)
  | next
  | tip

def step (window : Window) : Request → Window
  | .reset first => startingAt first
  | .push block => (window.push block).2
  | .pop => window.pop.2
  | .get _ | .next | .tip => window

def run (window : Window) (requests : List Request) : Window := requests.foldl step window

theorem pushCases (window : Window) (block : CompactBlock) :
    window.extends? block = true ∧
        window.push block = (true, { window with blocks := window.blocks ++ [block] }) ∨
      window.push block = (false, window) := by
  unfold push
  cases window.extends? block with
  | true => exact Or.inl ⟨rfl, rfl⟩
  | false => exact Or.inr rfl

theorem pushSound {window : Window} (sound : window.Sound) (block : CompactBlock) :
    (window.push block).2.Sound := by
  rcases pushCases window block with ⟨follows, pushed⟩ | refused
  · rw [pushed]
    exact extendedSound sound follows
  · rw [refused]
    exact sound

theorem stepSound {window : Window} (sound : window.Sound) (request : Request) :
    (window.step request).Sound := by
  cases request with
  | reset first => exact startingAtSound first
  | push block => exact pushSound sound block
  | pop => exact popSound sound
  | get height => exact sound
  | next => exact sound
  | tip => exact sound

theorem runSound {window : Window} (sound : window.Sound) (requests : List Request) :
    (window.run requests).Sound := by
  induction requests generalizing window with
  | nil => exact sound
  | cons request rest ih => exact ih (stepSound sound request)

theorem getThere {window : Window} {height : Nat} :
    (∃ block, window.get? height = some block) ↔
      window.first ≤ height ∧ height < window.next := by
  simp only [getOk, exists_and_left, ← Option.isSome_iff_exists, isSome_getElem?, next]
  omega

theorem getHeight {window : Window} (sound : window.Sound) {height : Nat} {block : CompactBlock}
    (found : window.get? height = some block) : block.height = height := by
  obtain ⟨above, position⟩ := getOk.mp found
  rw [sound.heights _ block position]
  omega

theorem lastFound {window : Window} (sound : window.Sound) {last : CompactBlock}
    (ends : window.blocks.getLast? = some last) : window.get? (window.next - 1) = some last := by
  obtain ⟨above, under⟩ := lastHeight sound ends
  have place : window.next - 1 - window.first = window.blocks.length - 1 := by
    unfold next
    omega
  refine getOk.mpr ⟨by omega, ?_⟩
  rw [place]
  exact lastAt.mp ends

theorem everyWindowJoined (first : Nat) (requests : List Request) :
    let window := (startingAt first).run requests
    (∀ index block, window.blocks[index]? = some block → block.height = window.first + index) ∧
    (∀ index parent child, window.blocks[index]? = some parent →
      window.blocks[index + 1]? = some child → child.prevHash = parent.hash) ∧
    (∀ height, (∃ block, window.get? height = some block) ↔
      window.first ≤ height ∧ height < window.next) ∧
    (∀ height block, window.get? height = some block → block.height = height) ∧
    (window.blocks ≠ [] → ∃ block, window.get? (window.next - 1) = some block ∧
      window.tip? = some (block.height, block.hash)) ∧
    ∀ block, (window.push block).1 = false → (window.push block).2 = window := by
  intro window
  have sound := runSound (startingAtSound first) requests
  refine ⟨sound.heights, sound.links, fun height => getThere, fun height block => getHeight sound,
    fun cached => ?_, fun block refused => ?_⟩
  · have ends := List.getLast?_eq_some_getLast cached
    exact ⟨_, lastFound sound ends, tipOk.mpr ⟨_, ends, rfl, rfl⟩⟩
  · rcases pushCases window block with ⟨_, pushed⟩ | same
    · rw [pushed] at refused
      contradiction
    · rw [same]

end WalletProxy.Window
