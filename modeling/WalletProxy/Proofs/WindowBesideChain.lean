import WalletProxy.Proofs.CompactBlocks
import WalletProxy.Proofs.WindowSteps

/-! A window of compact blocks beside the chain they come from. Each block names its predecessor,
in the window as in the chain, so one hash that both have at one height settles all hashes below. -/
namespace WalletProxy

def Segment.Joined (segment : Segment) : Prop :=
  ∀ index parent child, segment.blocks[index]? = some parent →
    segment.blocks[index + 1]? = some child → child.header.prev = parent.hash

namespace Window

def Beside (chain : Segment) (block : CompactBlock) : Prop :=
  ∃ full, chain.block? block.height = some full ∧ full.hash.val = block.hash

/- From the last block down: a predecessor's hash stands in its successor, on both sides. Where the
chain begins above the window, its first block names a predecessor that no block of the window
is. -/
theorem allBeside {window : Window} {chain : Segment} (sound : window.Sound)
    (joined : chain.Joined)
    (rooted : window.first < chain.start → ∀ full, chain.blocks[0]? = some full →
      ∀ block ∈ window.blocks, block.hash ≠ full.header.prev.val)
    (parents : ∀ block ∈ window.blocks, ∀ full ∈ chain.blocks, full.hash.val = block.hash →
      block.prevHash = full.header.prev.val)
    {last : CompactBlock} (tip : window.blocks.getLast? = some last) (meets : Beside chain last) :
    ∀ block ∈ window.blocks, Beside chain block := by
  have down : ∀ back index block, window.blocks[index]? = some block →
      index + back + 1 = window.blocks.length → Beside chain block := by
    intro back
    induction back with
    | zero =>
      intro index block found count
      have position : index = window.blocks.length - 1 := by omega
      rw [position, ← lastAt] at found
      cases Option.some.inj (tip.symm.trans found)
      exact meets
    | succ back ih =>
      intro index block found count
      have inside : index + 1 < window.blocks.length := by omega
      have above := List.getElem?_eq_getElem inside
      obtain ⟨full, there, same⟩ := ih (index + 1) _ above (by omega)
      have member : block ∈ window.blocks := List.mem_of_getElem? found
      have height := sound.heights index block found
      rw [sound.heights (index + 1) _ above] at there
      obtain ⟨reached, place⟩ := Segment.blockAt.mp there
      have named : block.hash = full.header.prev.val := by
        rw [← sound.links index block _ found above]
        exact parents _ (List.mem_of_getElem? above) full (List.mem_of_getElem? place) same
      rcases Nat.lt_or_ge (window.first + index) chain.start with outside | within
      · have bottom : window.first + (index + 1) - chain.start = 0 := by omega
        rw [bottom] at place
        exact absurd named (rooted (by omega) full place block member)
      · have next : window.first + (index + 1) - chain.start =
            window.first + index - chain.start + 1 := by omega
        rw [next] at place
        obtain ⟨bound, _⟩ := List.getElem?_eq_some_iff.mp place
        have under : window.first + index - chain.start < chain.blocks.length := by omega
        have below := List.getElem?_eq_getElem under
        have parent := joined _ _ full below place
        refine ⟨chain.blocks[window.first + index - chain.start], ?_, ?_⟩
        · rw [height]
          exact Segment.blockAt.mpr ⟨within, below⟩
        · rw [named, parent]
  intro block member
  obtain ⟨index, found⟩ := List.mem_iff_getElem?.mp member
  obtain ⟨inside, _⟩ := List.getElem?_eq_some_iff.mp found
  exact down (window.blocks.length - 1 - index) index block found (by omega)

end Window

end WalletProxy
