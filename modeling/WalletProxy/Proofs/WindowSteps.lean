import WalletProxy.Window

/-! What one change of the window keeps: the heights follow one another from the first on, and each
block names the one before it. -/
namespace WalletProxy

namespace Window

structure Sound (window : Window) : Prop where
  heights : ∀ index block, window.blocks[index]? = some block →
    block.height = window.first + index
  links : ∀ index parent child, window.blocks[index]? = some parent →
    window.blocks[index + 1]? = some child → child.prevHash = parent.hash

theorem startingAtSound (first : Nat) : (startingAt first).Sound := by
  constructor
  · intro index block found
    simp [startingAt] at found
  · intro index parent child below above
    simp [startingAt] at below

theorem extendsOk {window : Window} {block : CompactBlock} :
    window.extends? block = true ↔ block.height = window.next ∧
      ∀ last, window.blocks.getLast? = some last → last.hash = block.prevHash := by
  unfold extends?
  cases window.blocks.getLast? with
  | none => simp
  | some last => simp

theorem lastAt {window : Window} {last : CompactBlock} :
    window.blocks.getLast? = some last ↔ window.blocks[window.blocks.length - 1]? = some last := by
  rw [List.getLast?_eq_getElem?]

theorem extendedSound {window : Window} {block : CompactBlock} (sound : window.Sound)
    (follows : window.extends? block = true) :
    Sound { window with blocks := window.blocks ++ [block] } := by
  obtain ⟨height, joins⟩ := extendsOk.mp follows
  have atEnd : ∀ index other, window.blocks.length ≤ index →
      (window.blocks ++ [block])[index]? = some other →
      index = window.blocks.length ∧ other = block := by
    intro index other beyond found
    rw [List.getElem?_append_right beyond] at found
    obtain ⟨inside, same⟩ := List.getElem?_eq_some_iff.mp found
    simp only [List.length_singleton] at inside
    exact ⟨by omega, by rw [← same]; simp⟩
  constructor
  · intro index other found
    rcases Nat.lt_or_ge index window.blocks.length with old | new
    · rw [List.getElem?_append_left old] at found
      exact sound.heights index other found
    · obtain ⟨rfl, rfl⟩ := atEnd index other new found
      exact height
  · intro index parent child below above
    rcases Nat.lt_or_ge (index + 1) window.blocks.length with old | new
    · rw [List.getElem?_append_left (by omega)] at below above
      exact sound.links index parent child below above
    · obtain ⟨position, rfl⟩ := atEnd (index + 1) child new above
      rw [List.getElem?_append_left (by omega)] at below
      have last : window.blocks.getLast? = some parent := by
        rw [lastAt, ← position]
        exact below
      exact (joins parent last).symm

theorem popSound {window : Window} (sound : window.Sound) : window.pop.2.Sound := by
  have kept : ∀ (index : Nat) (block : CompactBlock), window.pop.2.blocks[index]? = some block →
      window.blocks[index]? = some block := by
    intro index block found
    have front : (window.blocks.take (window.blocks.length - 1))[index]? = some block := by
      rw [← List.dropLast_eq_take]
      exact found
    obtain ⟨inside, _⟩ := List.getElem?_eq_some_iff.mp front
    rw [List.length_take] at inside
    rw [List.getElem?_take_of_lt (by omega)] at front
    exact front
  constructor
  · intro index block found
    exact sound.heights index block (kept index block found)
  · intro index parent child below above
    exact sound.links index parent child (kept index parent below) (kept (index + 1) child above)

theorem popShorter {window : Window} {last : CompactBlock}
    (tip : window.blocks.getLast? = some last) : window.pop.2 ≠ window := by
  intro same
  have size := congrArg (fun window => window.blocks.length) same
  have inside := List.length_pos_of_mem (List.mem_of_getLast? tip)
  simp only [pop, List.length_dropLast] at size
  omega

theorem tipOk {window : Window} {height : Nat} {hash : Bytes} :
    window.tip? = some (height, hash) ↔
      ∃ last, window.blocks.getLast? = some last ∧ last.height = height ∧ last.hash = hash := by
  unfold tip?
  rw [Option.map_eq_some_iff]
  simp only [Prod.mk.injEq]

theorem getOk {window : Window} {height : Nat} {block : CompactBlock} :
    window.get? height = some block ↔
      window.first ≤ height ∧ window.blocks[height - window.first]? = some block := by
  unfold get?
  split
  · rename_i above
    simp [above]
  · rename_i under
    simp [under]

theorem lastHeight {window : Window} (sound : window.Sound) {last : CompactBlock}
    (found : window.blocks.getLast? = some last) :
    window.first ≤ last.height ∧ last.height + 1 = window.next := by
  have position := lastAt.mp found
  obtain ⟨inside, _⟩ := List.getElem?_eq_some_iff.mp position
  rw [sound.heights _ last position]
  unfold next
  omega

end Window

end WalletProxy
