import WalletProxy.Proofs.FillerBlocks
import WalletProxy.Proofs.Placement

/-! Transactions offered to one block, which takes them until it is full. The first byte of the
Sapling root counts them modulo 256, and a block never takes so many that the count would come back
to where it was: all that it has been on the way have headers of their own. -/
namespace WalletProxy

namespace Block

theorem appendCounts {block fuller : Block} {tx : BlockTx}
    (appended : block.append tx = .ok fuller) :
    fuller.transactions.length = block.transactions.length + 1 := by
  obtain ⟨_, rfl⟩ := appendOk.mp appended
  rw [List.length_append, List.length_singleton]

def offered (block : Block) (tx : BlockTx) : Block :=
  match block.append tx with
  | .error _ => block
  | .ok fuller => fuller

def offeredAll (block : Block) (txs : List BlockTx) : Block := txs.foldl offered block

def stages (block : Block) : List BlockTx → List Block
  | [] => [block]
  | tx :: rest =>
      match block.append tx with
      | .error _ => stages block rest
      | .ok fuller => block :: stages fuller rest

theorem offeredRefused {block : Block} {tx : BlockTx} {fault : BlockError}
    (refused : block.append tx = .error fault) : block.offered tx = block := by
  rw [offered, refused]

theorem offeredTaken {block fuller : Block} {tx : BlockTx}
    (taken : block.append tx = .ok fuller) : block.offered tx = fuller := by
  rw [offered, taken]

theorem offeredAllTransactions (block : Block) (txs : List BlockTx) :
    (block.offeredAll txs).transactions =
      block.transactions ++ txs.take (maxTransactions - block.transactions.length) := by
  induction txs generalizing block with
  | nil => simp [offeredAll]
  | cons tx rest ih =>
    show ((block.offered tx).offeredAll rest).transactions = _
    rw [ih]
    cases appended : block.append tx with
    | error fault =>
      obtain ⟨full, _⟩ := appendError.mp appended
      simp [offeredRefused appended, Nat.sub_eq_zero_of_le full]
    | ok fuller =>
      obtain ⟨room, same⟩ := appendOk.mp appended
      have more : maxTransactions - block.transactions.length =
          maxTransactions - (block.transactions.length + 1) + 1 := by omega
      rw [offeredTaken appended, same, more]
      simp

theorem stagesLength (block : Block) (txs : List BlockTx) :
    (block.stages txs).length =
      1 + min txs.length (maxTransactions - block.transactions.length) := by
  fun_induction stages block txs with
  | case1 block => simp
  | case2 block tx rest fault refused ih =>
    obtain ⟨full, _⟩ := appendError.mp refused
    rw [ih, Nat.sub_eq_zero_of_le full, Nat.min_zero, Nat.min_zero]
  | case3 block tx rest fuller taken ih =>
    obtain ⟨room, _⟩ := appendOk.mp taken
    rw [List.length_cons, ih, appendCounts taken, List.length_cons]
    omega

theorem stagesReached (block : Block) (txs : List BlockTx) {calls : Nat}
    (made : calls ≤ txs.length) :
    (block.stages txs)[min calls (maxTransactions - block.transactions.length)]? =
      some (block.offeredAll (txs.take calls)) := by
  fun_induction stages block txs generalizing calls with
  | case1 block =>
    have none : calls = 0 := Nat.le_zero.mp made
    subst none
    rw [Nat.zero_min]
    rfl
  | case2 block tx rest fault refused ih =>
    obtain ⟨full, _⟩ := appendError.mp refused
    simp only [Nat.sub_eq_zero_of_le full, Nat.min_zero] at ih ⊢
    cases calls with
    | zero => exact ih (Nat.zero_le _)
    | succ calls =>
      rw [ih (Nat.le_of_succ_le_succ made)]
      show _ = some ((block.offered tx).offeredAll (rest.take calls))
      rw [offeredRefused refused]
  | case3 block tx rest fuller taken ih =>
    cases calls with
    | zero =>
      rw [Nat.zero_min]
      rfl
    | succ calls =>
      have next := ih (Nat.le_of_succ_le_succ made)
      obtain ⟨room, _⟩ := appendOk.mp taken
      have more : maxTransactions - block.transactions.length =
          maxTransactions - fuller.transactions.length + 1 := by
        rw [appendCounts taken]
        omega
      rw [more, Nat.add_min_add_right, List.getElem?_cons_succ, next]
      show _ = some ((block.offered tx).offeredAll (rest.take calls))
      rw [offeredTaken taken]

theorem offeredAllStage (block : Block) (txs : List BlockTx) :
    block.offeredAll txs ∈ block.stages txs := by
  have reached := stagesReached block txs (Nat.le_refl txs.length)
  rw [List.take_length] at reached
  exact List.mem_of_getElem? reached

theorem stagesWellFormed {block : Block} {txs : List BlockTx} (good : block.WellFormed)
    (parsed : ∀ tx ∈ txs, BlockTx.ofBytes tx.data = .ok tx) :
    ∀ stage ∈ block.stages txs, stage.WellFormed := by
  fun_induction stages block txs with
  | case1 block => exact List.forall_mem_singleton.mpr good
  | case2 block tx rest fault refused ih => exact ih good (List.forall_mem_cons.mp parsed).2
  | case3 block tx rest fuller taken ih =>
    obtain ⟨head, tail⟩ := List.forall_mem_cons.mp parsed
    exact List.forall_mem_cons.mpr ⟨good, ih (appendWellFormed good head taken) tail⟩

structure Took (old : Block) (txs : List BlockTx) (new : Block) : Prop where
  filled : Filled old txs new
  prev : new.header.prev = old.header.prev
  room : new.transactions.length ≤ max old.transactions.length maxTransactions

theorem tookSelf (block : Block) : Took block [] block :=
  ⟨filledSelf block, rfl, Nat.le_max_left _ _⟩

theorem tookFirst {block fuller last : Block} {tx : BlockTx} {rest : List BlockTx}
    (appended : block.append tx = .ok fuller) (took : Took fuller rest last) :
    Took block (tx :: rest) last := by
  obtain ⟨room, same⟩ := appendOk.mp appended
  have grown := appendCounts appended
  have bounded := took.room
  refine ⟨filledFirst appended took.filled, ?_, by omega⟩
  rw [took.prev, same]
  rfl

theorem stagesTook {block : Block} {txs : List BlockTx} :
    ∀ stage ∈ block.stages txs, ∃ taken, Took block taken stage := by
  fun_induction stages block txs with
  | case1 block => exact List.forall_mem_singleton.mpr ⟨[], tookSelf block⟩
  | case2 block tx rest fault refused ih => exact ih
  | case3 block tx rest fuller appended ih =>
    refine List.forall_mem_cons.mpr ⟨⟨[], tookSelf block⟩, fun stage member => ?_⟩
    obtain ⟨taken, took⟩ := ih stage member
    exact ⟨tx :: taken, tookFirst appended took⟩

/-- How a block and what it became are told apart: by the first byte of the Sapling root, and by no
other part of the header. -/
structure Marked (earlier later : Block) : Prop where
  marker : ∃ first second rest, earlier.header.saplingRoot.val = first :: rest ∧
    later.header.saplingRoot.val = second :: rest ∧ first ≠ second
  header : later.header = { earlier.header with saplingRoot := later.header.saplingRoot }
  height : later.height = earlier.height
  transactions : earlier.transactions <+: later.transactions

theorem markerMoves {first : UInt8} {count : Nat} (some : 0 < count) (few : count < 256) :
    first ≠ UInt8.ofNat (first.toNat + count) := by
  intro same
  have bound := first.toNat_lt
  have value := congrArg UInt8.toNat same
  rw [UInt8.toNat_ofNat'] at value
  omega

/- A block has one transaction from the start, so it takes at most 252 more. -/
theorem tookMarked {old new : Block} {tx : BlockTx} {txs : List BlockTx}
    (nonempty : 1 ≤ old.transactions.length) (took : Took old (tx :: txs) new) :
    Marked old new := by
  obtain ⟨first, rest, own, counted⟩ := took.filled.marker
  have few : (tx :: txs).length < 256 := by
    have bounded := took.room
    rw [took.filled.transactions, List.length_append, List.length_cons] at bounded
    unfold maxTransactions at bounded
    rw [List.length_cons]
    omega
  refine ⟨⟨first, _, rest, own, counted, markerMoves (by simp) few⟩, ?_, took.filled.height, ?_⟩
  · have same := took.filled.header
    rw [took.prev] at same
    exact same
  · rw [took.filled.transactions]
    exact List.prefix_append _ _

theorem stagesMarked {block : Block} {txs : List BlockTx}
    (nonempty : 1 ≤ block.transactions.length) : (block.stages txs).Pairwise Marked := by
  fun_induction stages block txs with
  | case1 block => exact List.pairwise_singleton _ _
  | case2 block tx rest fault refused ih => exact ih nonempty
  | case3 block tx rest fuller appended ih =>
    have more : 1 ≤ fuller.transactions.length := by
      rw [appendCounts appended]
      exact Nat.le_add_left _ _
    refine List.pairwise_cons.mpr ⟨fun stage member => ?_, ih more⟩
    obtain ⟨taken, took⟩ := stagesTook stage member
    exact tookMarked nonempty (tookFirst appended took)

theorem markersApart {block : Block} (whole : ofBytes block.write = .ok block)
    {txs : List BlockTx} (parsed : ∀ tx ∈ txs, BlockTx.ofBytes tx.data = .ok tx) :
    (block.stages txs).length =
        1 + min txs.length (maxTransactions - block.transactions.length) ∧
      (∀ calls ≤ txs.length,
        (block.stages txs)[min calls (maxTransactions - block.transactions.length)]? =
          some (block.offeredAll (txs.take calls))) ∧
      (∀ stage ∈ block.stages txs, ofBytes stage.write = .ok stage) ∧
      (block.stages txs).Pairwise fun earlier later =>
        earlier.header ≠ later.header ∧ Marked earlier later := by
  obtain ⟨good, _⟩ := ofBytesWellFormed whole
  refine ⟨stagesLength block txs, fun _ => stagesReached block txs, ?_, ?_⟩
  · intro stage member
    exact ofBytesWrite (stagesWellFormed good parsed stage member)
  · refine (stagesMarked good.count.1).imp fun {earlier later} marked => ⟨?_, marked⟩
    obtain ⟨first, second, rest, own, other, different⟩ := marked.marker
    intro same
    rw [same, other] at own
    exact different (List.cons.inj own).1.symm

def fillerTx : BlockTx := ⟨doubleSha256 (Filler.coinbase 1), Filler.coinbase 1⟩

theorem fillerTxParsed (times : Nat) :
    ∀ tx ∈ List.replicate times fillerTx, BlockTx.ofBytes tx.data = .ok tx :=
  List.forall_mem_replicate.mpr (.inr (Filler.coinbaseParsed 1))

theorem fullBlockMarkers :
    let stages := (Filler.made 0 1).stages (List.replicate 300 fillerTx)
    stages.length = 253 ∧ stages.Pairwise fun earlier later => earlier.header ≠ later.header := by
  have whole := ofBytesWrite (Filler.blockWellFormed (Filler.blockMade 0 1))
  obtain ⟨size, _, _, apart⟩ := markersApart whole (fillerTxParsed 300)
  rw [List.length_replicate] at size
  exact ⟨size, apart.imp And.left⟩

end Block

end WalletProxy
