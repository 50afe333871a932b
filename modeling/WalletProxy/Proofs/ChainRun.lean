import WalletProxy.Proofs.SegmentSteps
import WalletProxy.Sim.Chain

/-! Runs of the simulated chain. Every request, granted or refused, keeps the active chain sound and
linked; the staging area holds only what a commit may put there. -/
namespace WalletProxy
open Segment (Sound Linked)
open Unsigned (Overflow)

namespace Filler

theorem blockWellFormed {nonce : Int32} {height : Nat} {block : Block}
    (ok : Filler.block nonce height = .ok block) : block.WellFormed := by
  simp only [Filler.block, Results.bindOk, Results.mapErrorOk] at ok
  obtain ⟨tx, parsed, assembled⟩ := ok
  obtain ⟨sameHeader, sameTxs, first, found, declared⟩ := Block.assembleOk.mp assembled
  obtain ⟨sameData, _⟩ := BlockTx.ofBytesOk.mp parsed
  cases Option.some.inj found
  refine ⟨?_, ?_, ?_, ?_⟩
  · have size : (header nonce height).solution.length = solutionSize := List.length_replicate
    rw [sameHeader, size]
    decide
  · rw [sameTxs]
    simp [CompactSize.limit]
  · intro other member
    rw [sameTxs] at member
    cases List.mem_singleton.mp member
    rw [sameData]
    exact parsed
  · intro other there
    rw [sameTxs] at there
    cases Option.some.inj there
    exact declared

theorem blocksWellFormed {overflow : Overflow} {start count : Nat} {nonce : Int32}
    {blocks : List Block} (ok : Filler.blocks overflow start nonce count = some (.ok blocks)) :
    ∀ block ∈ blocks, block.WellFormed := by
  intro block member
  obtain ⟨heights, _, each⟩ := Option.map_eq_some_iff.mp ok
  obtain ⟨height, _, made⟩ := Results.mapMMember each member
  exact blockWellFormed made

end Filler

namespace SimChain

inductive Request where
  | reset (activation : Nat) (branch name : String)
  | stageBlock (bytes : Bytes)
  | stageBlocks (blocks : List Bytes)
  | stageFiller (start : Nat) (nonce : Int32) (count : Nat)
  | stageTx (height : Nat) (bytes : Bytes)
  | commit (height : Nat)
  | recordIncoming (bytes : Bytes)
  | pushIncoming (bytes : Bytes)
  | clearIncoming

def step (overflow : Overflow) (chain : SimChain) : Request → SimChain
  | .reset activation branch name => (chain.reset activation branch name).2
  | .stageBlock bytes => (chain.stageBlock bytes).2
  | .stageBlocks blocks => (chain.stageBlocks blocks).2
  | .stageFiller start nonce count => (chain.stageFiller overflow start nonce count).2
  | .stageTx height bytes => (chain.stageTx height bytes).2
  | .commit height => (chain.commit overflow height).2
  | .recordIncoming bytes => (chain.recordIncoming bytes).2
  | .pushIncoming bytes => chain.pushIncoming bytes
  | .clearIncoming => chain.clearIncoming

def run (overflow : Overflow) (chain : SimChain) (requests : List Request) : SimChain :=
  requests.foldl (step overflow) chain

structure Valid (chain : SimChain) : Prop where
  sound : chain.active.Sound
  linked : chain.active.Linked
  blocks : ∀ block ∈ chain.stagedBlocks, block.WellFormed
  txs : ∀ entry ∈ chain.stagedTxs, BlockTx.ofBytes entry.2.data = .ok entry.2

theorem freshValid : fresh.Valid :=
  ⟨Segment.emptySound, Segment.emptyLinked, by simp [fresh], by simp [fresh]⟩

theorem startedValid (activation : Nat) (branch name : String) :
    (started activation branch name).Valid :=
  ⟨Segment.emptySound, Segment.emptyLinked, by simp [started, fresh], by simp [started, fresh]⟩

theorem resetValid {chain : SimChain} (valid : chain.Valid) (activation : Nat)
    (branch name : String) : (chain.reset activation branch name).2.Valid := by
  unfold reset
  split
  · exact valid
  · split
    · exact valid
    · exact startedValid activation branch name

theorem moreBlocksValid {chain : SimChain} (valid : chain.Valid) {blocks : List Block}
    (good : ∀ block ∈ blocks, block.WellFormed) :
    Valid { chain with stagedBlocks := chain.stagedBlocks ++ blocks } :=
  ⟨valid.sound, valid.linked, List.forall_mem_append.mpr ⟨valid.blocks, good⟩, valid.txs⟩

theorem stageBlockValid {chain : SimChain} (valid : chain.Valid) (bytes : Bytes) :
    (chain.stageBlock bytes).2.Valid := by
  unfold stageBlock
  split
  · exact valid
  · split
    · exact valid
    · rename_i block ok
      obtain ⟨good, _⟩ := Block.ofBytesWellFormed ok
      exact moreBlocksValid valid (List.forall_mem_singleton.mpr good)

theorem stageBlocksValid {chain : SimChain} (valid : chain.Valid) (blocks : List Bytes) :
    (chain.stageBlocks blocks).2.Valid := by
  induction blocks generalizing chain with
  | nil => exact valid
  | cons bytes rest ih =>
    have staged := stageBlockValid valid bytes
    unfold stageBlocks
    cases h : chain.stageBlock bytes with
    | mk result next =>
      rw [h] at staged
      cases result with
      | error fault => exact staged
      | ok done => exact ih staged

theorem stageFillerValid {chain : SimChain} (valid : chain.Valid) (overflow : Overflow)
    (start : Nat) (nonce : Int32) (count : Nat) :
    (chain.stageFiller overflow start nonce count).2.Valid := by
  unfold stageFiller
  split
  · exact valid
  · split
    · exact valid
    · exact valid
    · rename_i blocks ok
      exact moreBlocksValid valid (Filler.blocksWellFormed ok)

theorem stageTxValid {chain : SimChain} (valid : chain.Valid) (height : Nat) (bytes : Bytes) :
    (chain.stageTx height bytes).2.Valid := by
  unfold stageTx
  split
  · exact valid
  · split
    · exact valid
    · rename_i tx ok
      obtain ⟨same, _⟩ := BlockTx.ofBytesOk.mp ok
      have again : BlockTx.ofBytes tx.data = .ok tx := by rw [same, ok]
      refine ⟨valid.sound, valid.linked, valid.blocks, ?_⟩
      exact List.forall_mem_append.mpr ⟨valid.txs, List.forall_mem_singleton.mpr again⟩

theorem mergedSound {overflow : Overflow} {chain : SimChain} {merged : Segment}
    (valid : chain.Valid) (placed : chain.merged overflow = .ok merged) : merged.Sound :=
  Segment.placeAllSound valid.sound valid.blocks placed

theorem filledOk {overflow : Overflow} {chain : SimChain} {segment : Segment} :
    chain.filled overflow = .ok segment ↔ ∃ merged, chain.merged overflow = .ok merged ∧
      merged.injectAll overflow chain.stagedTxs = .ok segment := by
  simp only [filled, Results.bindOk]

theorem commitValid {chain : SimChain} (valid : chain.Valid) (overflow : Overflow)
    (height : Nat) : (chain.commit overflow height).2.Valid := by
  unfold commit
  split
  · exact valid
  · cases built : chain.filled overflow with
    | error fault => exact ⟨valid.sound, valid.linked, by simp, by simp⟩
    | ok segment =>
      obtain ⟨merged, placed, put⟩ := filledOk.mp built
      -- Putting transactions in has broken the links; relinking restores them from any blocks.
      have sound := Segment.injectAllSound (mergedSound valid placed) valid.txs put
      exact ⟨Segment.relinkSound sound, Segment.relinkLinked segment, by simp, by simp⟩

theorem recordIncomingValid {chain : SimChain} (valid : chain.Valid) (bytes : Bytes) :
    (chain.recordIncoming bytes).2.Valid := by
  unfold recordIncoming
  split
  · exact valid
  · split
    · exact valid
    · exact ⟨valid.sound, valid.linked, valid.blocks, valid.txs⟩

theorem stepValid {chain : SimChain} (valid : chain.Valid) (overflow : Overflow)
    (request : Request) : (chain.step overflow request).Valid := by
  cases request with
  | reset activation branch name => exact resetValid valid activation branch name
  | stageBlock bytes => exact stageBlockValid valid bytes
  | stageBlocks blocks => exact stageBlocksValid valid blocks
  | stageFiller start nonce count => exact stageFillerValid valid overflow start nonce count
  | stageTx height bytes => exact stageTxValid valid height bytes
  | commit height => exact commitValid valid overflow height
  | recordIncoming bytes => exact recordIncomingValid valid bytes
  | pushIncoming bytes => exact ⟨valid.sound, valid.linked, valid.blocks, valid.txs⟩
  | clearIncoming => exact ⟨valid.sound, valid.linked, valid.blocks, valid.txs⟩

theorem runValid {chain : SimChain} (valid : chain.Valid) (overflow : Overflow)
    (requests : List Request) : (chain.run overflow requests).Valid := by
  induction requests generalizing chain with
  | nil => exact valid
  | cons request rest ih => exact ih (stepValid valid overflow request)

theorem everyChainLinked (overflow : Overflow) (requests : List Request) :
    let active := (fresh.run overflow requests).active
    (∀ index block, active.blocks[index]? = some block → block.height = active.start + index) ∧
    (∀ block, active.blocks[0]? = some block → block.header.prev = Bytes32.zero) ∧
    (∀ index parent child, active.blocks[index]? = some parent →
      active.blocks[index + 1]? = some child → child.header.prev = parent.hash) ∧
    (∀ block ∈ active.blocks, ∃ coinbase rest, block.transactions = coinbase :: rest ∧
      Coinbase.height coinbase.data = .ok block.height) := by
  intro active
  have valid := runValid freshValid overflow requests
  refine ⟨valid.sound.heights, valid.linked.first, valid.linked.next, ?_⟩
  intro block member
  exact Block.wellFormedFirst (valid.sound.wellFormed block member)

end SimChain

end WalletProxy
