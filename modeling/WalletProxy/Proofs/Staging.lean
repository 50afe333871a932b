import WalletProxy.Proofs.ChainRun

/-! What staging leaves alone: it touches the staging area and nothing else. So a chain is ready for
requests from its first granted reset on. -/
namespace WalletProxy.SimChain
open Unsigned (Overflow)

def SameSession (chain other : SimChain) : Prop :=
  other = { chain with
    stagedBlocks := other.stagedBlocks, stagedTxs := other.stagedTxs, incoming := other.incoming }

theorem sameSessionReady {chain other : SimChain} (same : SameSession chain other) :
    other.isReset = chain.isReset := by
  rw [same]

theorem sameSessionTrans {first second third : SimChain} (start : SameSession first second)
    (later : SameSession second third) : SameSession first third := by
  unfold SameSession at start later ⊢
  calc third = { second with
        stagedBlocks := third.stagedBlocks, stagedTxs := third.stagedTxs,
        incoming := third.incoming } := later
    _ = _ := by rw [start]

theorem stageBlockSession (chain : SimChain) (bytes : Bytes) :
    SameSession chain (chain.stageBlock bytes).2 := by
  unfold stageBlock
  split
  · rfl
  · split
    · rfl
    · rfl

theorem stageBlocksSession (chain : SimChain) (blocks : List Bytes) :
    SameSession chain (chain.stageBlocks blocks).2 := by
  induction blocks generalizing chain with
  | nil => rfl
  | cons bytes rest ih =>
    have first := stageBlockSession chain bytes
    unfold stageBlocks
    split
    · rename_i fault next staged
      rw [staged] at first
      exact first
    · rename_i next staged
      rw [staged] at first
      exact sameSessionTrans first (ih next)

theorem stageFillerSession (overflow : Overflow) (chain : SimChain) (start : Nat) (nonce : Int32)
    (count : Nat) : SameSession chain (chain.stageFiller overflow start nonce count).2 := by
  unfold stageFiller
  split
  · rfl
  · split
    · rfl
    · rfl
    · rfl

theorem stageTxSession (chain : SimChain) (height : Nat) (bytes : Bytes) :
    SameSession chain (chain.stageTx height bytes).2 := by
  unfold stageTx
  split
  · rfl
  · split
    · rfl
    · rfl

theorem recordIncomingSession (chain : SimChain) (bytes : Bytes) :
    SameSession chain (chain.recordIncoming bytes).2 := by
  unfold recordIncoming
  split
  · rfl
  · split
    · rfl
    · rfl

theorem resetReady (chain : SimChain) (activation : Nat) (branch name : String) :
    (chain.reset activation branch name).2.isReset =
      (chain.isReset || (isBranch branch && isName name)) := by
  cases good : isBranch branch with
  | false => simp [reset, good]
  | true =>
    cases named : isName name with
    | false => simp [reset, good, named]
    | true => simp [reset, good, named, started]

theorem commitReady (overflow : Overflow) (chain : SimChain) (height : Nat) :
    (chain.commit overflow height).2.isReset = chain.isReset := by
  unfold commit
  split
  · rfl
  · dsimp only
    split
    · rfl
    · rfl

def Request.starts : Request → Bool
  | .reset _ branch name => isBranch branch && isName name
  | _ => false

theorem stepReady (overflow : Overflow) (chain : SimChain) (request : Request) :
    (chain.step overflow request).isReset = (chain.isReset || request.starts) := by
  cases request with
  | reset activation branch name => exact resetReady chain activation branch name
  | stageBlock bytes =>
    exact (sameSessionReady (stageBlockSession chain bytes)).trans (Bool.or_false _).symm
  | stageBlocks blocks =>
    exact (sameSessionReady (stageBlocksSession chain blocks)).trans (Bool.or_false _).symm
  | stageFiller start nonce count =>
    exact (sameSessionReady (stageFillerSession overflow chain start nonce count)).trans
      (Bool.or_false _).symm
  | stageTx height bytes =>
    exact (sameSessionReady (stageTxSession chain height bytes)).trans (Bool.or_false _).symm
  | commit height => exact (commitReady overflow chain height).trans (Bool.or_false _).symm
  | recordIncoming bytes =>
    exact (sameSessionReady (recordIncomingSession chain bytes)).trans (Bool.or_false _).symm
  | pushIncoming bytes => exact (Bool.or_false _).symm
  | clearIncoming => exact (Bool.or_false _).symm

theorem runReady (overflow : Overflow) (chain : SimChain) (requests : List Request) :
    (chain.run overflow requests).isReset = (chain.isReset || requests.any Request.starts) := by
  induction requests generalizing chain with
  | nil => exact (Bool.or_false _).symm
  | cons request rest ih =>
    show ((chain.step overflow request).run overflow rest).isReset = _
    rw [ih, stepReady, List.any_cons, Bool.or_assoc]

end WalletProxy.SimChain
