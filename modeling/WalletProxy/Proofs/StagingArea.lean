import WalletProxy.Proofs.Staging

/-! What staging adds. A request to stage blocks or a transaction puts what it can read behind what
is staged already; what that is does not depend on the chain. -/
namespace WalletProxy.SimChain
open Unsigned (Overflow)

def readable : List Bytes → List Block
  | [] => []
  | bytes :: rest =>
      match Block.ofBytes bytes with
      | .error _ => []
      | .ok block => block :: readable rest

namespace Request

def stagesBlocks : Request → Bool
  | .stageBlock _ | .stageBlocks _ | .stageFiller _ _ _ => true
  | _ => false

def stagesTxs : Request → Bool
  | .stageTx _ _ => true
  | _ => false

def stages (request : Request) : Bool := request.stagesBlocks || request.stagesTxs

def blocks (overflow : Overflow) : Request → List Block
  | .stageBlock bytes => readable [bytes]
  | .stageBlocks blocks => readable blocks
  | .stageFiller start nonce count =>
      match Filler.blocks overflow start nonce count with
      | some (.ok blocks) => blocks
      | _ => []
  | _ => []

def txs : Request → List (Nat × BlockTx)
  | .stageTx height bytes => (BlockTx.ofBytes bytes).toOption.toList.map (height, ·)
  | _ => []

theorem blocksOnly {request : Request} (staging : request.stagesBlocks = true) :
    request.txs = [] := by
  cases request with
  | stageTx height bytes => contradiction
  | _ => rfl

theorem txsOnly (overflow : Overflow) {request : Request} (staging : request.stagesTxs = true) :
    request.blocks overflow = [] := by
  cases request with
  | stageTx height bytes => rfl
  | _ => contradiction

end Request

def withStaged (chain : SimChain) (blocks : List Block) (txs : List (Nat × BlockTx)) : SimChain :=
  { chain with stagedBlocks := chain.stagedBlocks ++ blocks, stagedTxs := chain.stagedTxs ++ txs }

theorem withStagedNone (chain : SimChain) : chain.withStaged [] [] = chain := by
  simp [withStaged]

theorem withStagedTwice (chain : SimChain) (blocks more : List Block)
    (txs others : List (Nat × BlockTx)) :
    (chain.withStaged blocks txs).withStaged more others =
      chain.withStaged (blocks ++ more) (txs ++ others) := by
  simp [withStaged]

section
variable {chain : SimChain} (ready : chain.isReset = true)
include ready

theorem stageBlockRefuses {bytes : Bytes} {fault : BlockError}
    (read : Block.ofBytes bytes = .error fault) :
    chain.stageBlock bytes = (.error (.block fault), chain) := by
  simp [stageBlock, ready, read]

theorem stageBlockAdds {bytes : Bytes} {block : Block} (read : Block.ofBytes bytes = .ok block) :
    chain.stageBlock bytes = (.ok (), chain.withStaged [block] []) := by
  simp [stageBlock, ready, read, withStaged]

theorem stageBlocksAdds (blocks : List Bytes) :
    (chain.stageBlocks blocks).2 = chain.withStaged (readable blocks) [] := by
  induction blocks generalizing chain with
  | nil => exact chain.withStagedNone.symm
  | cons bytes rest ih =>
    cases read : Block.ofBytes bytes with
    | error fault =>
      simp only [stageBlocks, stageBlockRefuses ready read, readable, read, withStagedNone]
    | ok block =>
      simp only [stageBlocks, stageBlockAdds ready read, readable, read]
      have others : ((chain.withStaged [block] []).stageBlocks rest).2 =
          (chain.withStaged [block] []).withStaged (readable rest) [] := ih ready
      exact others.trans (withStagedTwice ..)

theorem stepAdds (overflow : Overflow) {request : Request} (staging : request.stages = true) :
    chain.step overflow request = chain.withStaged (request.blocks overflow) request.txs := by
  cases request with
  | stageBlock bytes =>
    have one : (chain.stageBlocks [bytes]).2 = (chain.stageBlock bytes).2 := by
      unfold stageBlocks
      cases chain.stageBlock bytes with
      | mk result next =>
        cases result with
        | error fault => rfl
        | ok done => rfl
    exact one.symm.trans (stageBlocksAdds ready [bytes])
  | stageBlocks blocks => exact stageBlocksAdds ready blocks
  | stageFiller start nonce count =>
    cases made : Filler.blocks overflow start nonce count with
    | none =>
      simpa [step, stageFiller, ready, Request.blocks, Request.txs, made]
        using chain.withStagedNone.symm
    | some result =>
      cases result with
      | error fault =>
        simpa [step, stageFiller, ready, Request.blocks, Request.txs, made]
          using chain.withStagedNone.symm
      | ok blocks =>
        simp [step, stageFiller, ready, withStaged, Request.blocks, Request.txs, made]
  | stageTx height bytes =>
    cases read : BlockTx.ofBytes bytes with
    | error fault =>
      simpa [step, stageTx, ready, Request.blocks, Request.txs, read, Except.toOption]
        using chain.withStagedNone.symm
    | ok tx =>
      simp [step, stageTx, ready, withStaged, Request.blocks, Request.txs, read, Except.toOption]
  | _ => contradiction

theorem runAdds (overflow : Overflow) {requests : List Request}
    (staging : ∀ request ∈ requests, request.stages = true) :
    chain.run overflow requests = chain.withStaged (requests.flatMap (Request.blocks overflow))
      (requests.flatMap Request.txs) := by
  induction requests generalizing chain with
  | nil => exact chain.withStagedNone.symm
  | cons request rest ih =>
    obtain ⟨here, later⟩ := List.forall_mem_cons.mp staging
    show (chain.step overflow request).run overflow rest = _
    rw [stepAdds ready overflow here]
    have others : (chain.withStaged (request.blocks overflow) request.txs).run overflow rest =
        (chain.withStaged (request.blocks overflow) request.txs).withStaged
          (rest.flatMap (Request.blocks overflow)) (rest.flatMap Request.txs) := ih ready later
    exact others.trans (withStagedTwice ..)

end

theorem blocksStaged {requests : List Request}
    (staging : ∀ request ∈ requests, request.stagesBlocks = true) :
    (∀ request ∈ requests, request.stages = true) ∧ requests.flatMap Request.txs = [] :=
  ⟨fun request member => by simp [Request.stages, staging request member],
    List.flatMap_eq_nil_iff.mpr fun request member => Request.blocksOnly (staging request member)⟩

theorem txsStaged (overflow : Overflow) {requests : List Request}
    (staging : ∀ request ∈ requests, request.stagesTxs = true) :
    (∀ request ∈ requests, request.stages = true) ∧
      requests.flatMap (Request.blocks overflow) = [] :=
  ⟨fun request member => by simp [Request.stages, staging request member],
    List.flatMap_eq_nil_iff.mpr fun request member =>
      Request.txsOnly overflow (staging request member)⟩

end WalletProxy.SimChain
