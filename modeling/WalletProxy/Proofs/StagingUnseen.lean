import WalletProxy.Proofs.Commit
import WalletProxy.Sim.Node

/-! What callers see of the simulated chain changes with a granted reset or commit, and with nothing
else. Until the first granted reset there is nothing to see, and nothing that a request could
change but the transactions that have come in. -/
namespace WalletProxy.SimChain
open Unsigned (Overflow)

def result (overflow : Overflow) (chain : SimChain) : Request → Option (Except SimError Unit)
  | .reset activation branch name => some (chain.reset activation branch name).1
  | .stageBlock bytes => some (chain.stageBlock bytes).1
  | .stageBlocks blocks => some (chain.stageBlocks blocks).1
  | .stageFiller start nonce count => (chain.stageFiller overflow start nonce count).1
  | .stageTx height bytes => some (chain.stageTx height bytes).1
  | .commit height => (chain.commit overflow height).1
  | .recordIncoming bytes => some ((chain.recordIncoming bytes).1.map fun _ => ())
  | .pushIncoming _ | .clearIncoming => some (.ok ())

namespace Request

def resets : Request → Bool
  | .reset _ _ _ => true
  | _ => false

def rebuilds : Request → Bool
  | .reset _ _ _ | .commit _ => true
  | _ => false

/-- Whether only a chain that has been reset can grant a request. No blocks at all can be staged on
any chain. -/
def needsReset : Request → Bool
  | .stageBlock _ | .stageFiller _ _ _ | .stageTx _ _ | .commit _ | .recordIncoming _ => true
  | .stageBlocks blocks => !blocks.isEmpty
  | _ => false

end Request

/-- Whether no request of a kind is granted in a run: each is refused or has no result. -/
def Refuses (overflow : Overflow) (kind : Request → Bool) : SimChain → List Request → Prop
  | _, [] => True
  | chain, request :: rest =>
      (kind request = true → chain.result overflow request ≠ some (.ok ())) ∧
        Refuses overflow kind (chain.step overflow request) rest

section
variable {overflow : Overflow} {chain : SimChain}

theorem resetKeeps {activation : Nat} {branch name : String}
    (refused : (chain.reset activation branch name).1 ≠ .ok ()) :
    (chain.reset activation branch name).2 = chain := by
  unfold reset at refused ⊢
  split
  · rfl
  · split
    · rfl
    · simp_all

theorem commitKeeps {height : Nat} (refused : (chain.commit overflow height).1 ≠ some (.ok ())) :
    SameSession chain (chain.commit overflow height).2 := by
  cases ready : chain.isReset with
  | false =>
    rw [commitNotReset overflow height ready]
    rfl
  | true =>
    cases built : chain.filled overflow with
    | error fault =>
      rw [commitRefused height ready built]
      rfl
    | ok segment =>
      rw [commitGranted height ready built] at refused
      contradiction

theorem resetRefused {activation : Nat} {branch name : String}
    (refused : chain.result overflow (.reset activation branch name) ≠ some (.ok ())) :
    chain.step overflow (.reset activation branch name) = chain :=
  resetKeeps fun granted => refused (congrArg some granted)

theorem requestSession {request : Request}
    (refused : request.rebuilds = true → chain.result overflow request ≠ some (.ok ())) :
    SameSession chain (chain.step overflow request) := by
  cases request with
  | reset activation branch name =>
    rw [resetRefused (refused rfl)]
    rfl
  | stageBlock bytes => exact stageBlockSession chain bytes
  | stageBlocks blocks => exact stageBlocksSession chain blocks
  | stageFiller start nonce count => exact stageFillerSession overflow chain start nonce count
  | stageTx height bytes => exact stageTxSession chain height bytes
  | commit height => exact commitKeeps (refused rfl)
  | recordIncoming bytes => exact recordIncomingSession chain bytes
  | pushIncoming bytes => rfl
  | clearIncoming => rfl

theorem quietSession {requests : List Request}
    (quiet : chain.Refuses overflow Request.rebuilds requests) :
    SameSession chain (chain.run overflow requests) := by
  induction requests generalizing chain with
  | nil => rfl
  | cons request rest ih =>
    obtain ⟨refused, others⟩ := quiet
    exact sameSessionTrans (requestSession refused) (ih others)

theorem readSession {other : SimChain} (same : SameSession chain other) (call : Call) :
    other.read call = chain.read call := by
  rw [same]
  rfl

theorem incomingTrans {first second third : SimChain}
    (start : second = { first with incoming := second.incoming })
    (later : third = { second with incoming := third.incoming }) :
    third = { first with incoming := third.incoming } := by
  calc third = { second with incoming := third.incoming } := later
    _ = _ := by rw [start]

section
variable (unready : chain.isReset = false)
include unready

theorem notResetRefused {request : Request} (gated : request.needsReset = true) :
    chain.result overflow request = some (.error .notReset) ∧
      chain.step overflow request = chain := by
  cases request with
  | stageBlocks blocks =>
    cases blocks with
    | nil => contradiction
    | cons bytes rest => simp [result, step, stageBlocks, stageBlock, unready]
  | stageBlock bytes => simp [result, step, stageBlock, unready]
  | stageFiller start nonce count => simp [result, step, stageFiller, unready]
  | stageTx height bytes => simp [result, step, stageTx, unready]
  | commit height => simp [result, step, commitNotReset overflow height unready]
  | recordIncoming bytes => simp [result, step, recordIncoming, unready, Except.map]
  | _ => contradiction

theorem unreadyStep {request : Request}
    (refused : request.resets = true → chain.result overflow request ≠ some (.ok ())) :
    chain.step overflow request =
      { chain with incoming := (chain.step overflow request).incoming } := by
  cases gated : request.needsReset with
  | true => rw [(notResetRefused unready gated).2]
  | false =>
    cases request with
    | reset activation branch name => rw [resetRefused (refused rfl)]
    | stageBlocks blocks =>
      obtain rfl : blocks = [] := by simpa [Request.needsReset] using gated
      rfl
    | pushIncoming bytes => rfl
    | clearIncoming => rfl
    | _ => contradiction

theorem unreadyRun {requests : List Request}
    (refused : chain.Refuses overflow Request.resets requests) :
    chain.run overflow requests =
      { chain with incoming := (chain.run overflow requests).incoming } := by
  induction requests generalizing chain with
  | nil => rfl
  | cons request rest ih =>
    obtain ⟨here, others⟩ := refused
    have first := unreadyStep unready here
    have stays : (chain.step overflow request).isReset = false := by rw [first, unready]
    exact incomingTrans first (ih stays others)

end

end

theorem stagingUnseen (overflow : Overflow) (requests later : List Request) :
    let chain := fresh.run overflow requests
    (chain.Refuses overflow Request.rebuilds later →
      ∀ call, (chain.run overflow later).read call = chain.read call) ∧
    (fresh.Refuses overflow Request.resets requests →
      chain = { fresh with incoming := chain.incoming } ∧
      ∀ request, request.needsReset = true →
        chain.result overflow request = some (.error .notReset) ∧
          chain.step overflow request = chain) := by
  intro chain
  constructor
  · intro quiet call
    exact readSession (quietSession quiet) call
  · intro never
    have same : chain = { fresh with incoming := chain.incoming } := unreadyRun rfl never
    have unready : chain.isReset = false := by rw [same]; rfl
    exact ⟨same, fun request gated => notResetRefused unready gated⟩

def oneBlock : List Request := [.reset 1 "c2d6d0b4" "regtest", .stageFiller 1 0 1, .commit 1]

def unplaceable : List Request :=
  [.stageFiller 2 0 1, .stageTx 9 (Filler.coinbase 700), .pushIncoming [9], .commit 2,
    .reset 1 "c2d6d0b4" "reg-test"]

theorem unplaceableUnseen :
    let chain := fresh.run .ends oneBlock
    chain.Refuses .ends Request.rebuilds unplaceable ∧
    (∀ call, (chain.run .ends unplaceable).read call = chain.read call) ∧
    fresh.Refuses .ends Request.resets unplaceable ∧
    (fresh.run .ends unplaceable).result .ends (.commit 2) = some (.error .notReset) := by
  intro chain
  have quiet : chain.Refuses .ends Request.rebuilds unplaceable :=
    ⟨nofun, nofun, nofun, fun _ => nofun, fun _ => nofun, trivial⟩
  have never : fresh.Refuses .ends Request.resets unplaceable :=
    ⟨nofun, nofun, nofun, nofun, fun _ => nofun, trivial⟩
  have seen := (stagingUnseen .ends oneBlock unplaceable).1 quiet
  obtain ⟨_, gated⟩ := (stagingUnseen .ends unplaceable []).2 never
  exact ⟨quiet, seen, never, (gated (.commit 2) rfl).1⟩

end WalletProxy.SimChain
