import WalletProxy.Proofs.SessionRun
import WalletProxy.Proofs.WalletJobs

/-! What one call of a wallet, or one turn of the follower, can do in a session: as much at a later
time as now, nothing to how often the proxy polls and refreshes, and nothing to the chain except by
sending a transaction. So the follower stays between two turns, and the clock moves only where a
session lets time pass. -/
namespace WalletProxy
open Unsigned (Overflow)

namespace Activity

def later (delay : Nat) : Activity → Activity
  | ready => ready
  | resting due => resting (due + delay)
  | waiting due reply next => waiting (due + delay) reply next

theorem laterJob (activity : Activity) (delay : Nat) :
    (activity.later delay).job = activity.job := by
  cases activity with
  | ready => rfl
  | resting due => rfl
  | waiting due reply next => rfl

theorem laterDue (activity : Activity) (delay now : Nat) :
    (activity.later delay).due ≤ now + delay ↔ activity.due ≤ now := by
  cases activity with
  | ready => simp [later, due]
  | resting due => exact Nat.add_le_add_iff_right
  | waiting due reply next => exact Nat.add_le_add_iff_right

theorem laterPaced (due delay : Nat) (pace : Follower.Pace) :
    (paced due pace).later delay = paced (due + delay) pace := by
  cases pace with
  | again => rfl
  | rest => rfl

end Activity

namespace SimProxy

variable {ι α β : Type} {asks : Call → Prop} {fine : α → Prop}

def later (delay : Nat) (proxy : SimProxy) : SimProxy :=
  { proxy with
    store := proxy.store.later delay, follower := proxy.follower.map (Activity.later delay) }

/-- Work that does the same at a later time and touches neither the follower nor what it goes by; it
changes the chain only through what it may ask. -/
structure Relative (asks : Call → Prop) (work : SimProxy → α × SimProxy) : Prop where
  later : ∀ proxy delay, work (proxy.later delay) = Prod.map id (later delay) (work proxy)
  follower : ∀ proxy, (work proxy).2.follower = proxy.follower
  poll : ∀ proxy, (work proxy).2.poll = proxy.poll
  interval : ∀ proxy,
    (work proxy).2.store.mempool.interval = proxy.store.mempool.interval
  node : ∀ proxy, (∀ call, asks call → (SimChain.answer call proxy.node).2 = proxy.node) →
    (work proxy).2.node = proxy.node

theorem relativeMap {work : SimProxy → α × SimProxy} (relative : Relative asks work) (wrap : α → β) :
    Relative asks fun proxy => Prod.map wrap id (work proxy) where
  later proxy delay := by rw [relative.later]; rfl
  follower := relative.follower
  poll := relative.poll
  interval := relative.interval
  node := relative.node

section
variable {job : Job Store ι α} (relative : job.Relative asks fine)
include relative

theorem laterOutcome (proxy : SimProxy) (delay : Nat) :
    (proxy.later delay).outcome job =
      { proxy.outcome job with store := (proxy.outcome job).store.later delay } :=
  Job.laterRuns SimChain.answer relative delay proxy.store proxy.node

theorem relativeDone (value : Job.Outcome Store ι SimChain α → β)
    (same : ∀ outcome store, value { outcome with store } = value outcome) :
    Relative asks fun proxy => (value (proxy.outcome job), proxy.having job) where
  later proxy delay := by
    simp only [having, laterOutcome relative, same]
    rfl
  follower _ := rfl
  poll _ := rfl
  interval proxy := Job.sameInterval SimChain.answer relative proxy.store proxy.node
  node proxy kept := Job.sameNode SimChain.answer relative kept proxy.store

end

theorem relativeDid {job : Job Store Empty α} (relative : job.Relative asks fine) :
    Relative asks (did job) := relativeDone relative (·.value) fun _ _ => rfl

theorem relativeCalled {handler : Wallet.Handler Empty α} (relative : handler.Relative asks fine) :
    Relative asks (called handler) := relativeDid relative

theorem relativeReceived {stream : Wallet.Stream ι}
    (relative : stream.produce.Relative asks fun _ => True) :
    Relative asks (received stream) :=
  relativeDone relative (fun outcome => Proxy.Received.mk outcome.items outcome.value)
    fun _ _ => rfl

theorem relativeKept (value : α) : Relative asks fun proxy => (value, proxy) :=
  ⟨fun _ _ => rfl, fun _ => rfl, fun _ => rfl, fun _ => rfl, fun _ _ => rfl⟩

theorem relativeThen {work : SimProxy → α × SimProxy} {next : α → SimProxy → β × SimProxy}
    (first : Relative asks work) (onward : ∀ proxy, Relative asks (next (work proxy).1)) :
    Relative asks fun proxy => next (work proxy).1 (work proxy).2 where
  later proxy delay := by
    rw [first.later]
    exact (onward proxy).later (work proxy).2 delay
  follower proxy := ((onward proxy).follower _).trans (first.follower proxy)
  poll proxy := ((onward proxy).poll _).trans (first.poll proxy)
  interval proxy := ((onward proxy).interval _).trans (first.interval proxy)
  node proxy kept := by
    have same := first.node proxy kept
    have again := (onward proxy).node (work proxy).2
    rw [same] at again
    exact again kept

theorem relativeStreamed {handler : Wallet.Handler Empty (Wallet.Stream ι)}
    (relative : handler.Relative asks fun stream => stream.produce.Relative asks fun _ => True) :
    Relative asks (streamed handler) := by
  show Relative asks fun proxy => receivedIf (proxy.called handler).1 (proxy.called handler).2
  refine relativeThen (relativeCalled relative) fun proxy => ?_
  cases given : (proxy.called handler).1 with
  | error status => exact relativeKept _
  | ok stream =>
    have fine := Job.fineValue SimChain.answer relative proxy.store proxy.node stream given
    exact relativeMap (relativeReceived fine) _

def mayAsk : Wallet.Request → Call → Prop
  | .send _ => fun _ => True
  | _ => Call.reads

theorem relativeServe (request : Wallet.Request) :
    Relative (mayAsk request) (serve · request) := by
  cases request with
  | latestBlock => exact relativeMap (relativeCalled Wallet.latestBlockReads) _
  | block block => exact relativeMap (relativeCalled (Wallet.getBlockReads block)) _
  | blockRange range => exact relativeMap (relativeStreamed (Wallet.blockRangeReads range)) _
  | transaction filter => exact relativeMap (relativeCalled (Wallet.getTransactionReads filter)) _
  | send tx => exact relativeMap (relativeCalled (Wallet.sendRelative tx)) _
  | addressTxs filter => exact relativeMap (relativeStreamed (Wallet.addressTxsReads filter)) _
  | balance addresses => exact relativeMap (relativeCalled (Wallet.balanceReads addresses)) _
  | mempoolTxs held => exact relativeMap (relativeStreamed (Wallet.mempoolTxsReads held)) _
  | treeState block => exact relativeMap (relativeDid (Wallet.treeStateReads _ block)) _
  | utxos filter => exact relativeMap (relativeCalled (Wallet.utxosReads filter)) _
  | utxoStream filter => exact relativeMap (relativeStreamed (Wallet.utxoStreamReads filter)) _
  | serverInfo => exact relativeMap (relativeCalled Wallet.serverInfoReads) _

theorem incomingRelative (proxy : SimProxy) :
    (proxy.incoming.produce).Relative Call.reads fun _ => True :=
  Wallet.Stream.relativeItems _

def Accepts (activation : Int) (branch name : String) : Prop :=
  0 ≤ activation ∧ SimChain.isBranch branch = true ∧ SimChain.isName name = true

def started (poll interval now activation : Nat) (branch name : String) : SimProxy where
  node := .started activation branch name
  store := { now, window := .startingAt activation, mempool := .fresh interval }
  poll
  follower := none

section
variable {activation : Int} {branch name : String}

theorem resetGranted (accepts : Accepts activation branch name) (proxy : SimProxy) :
    proxy.reset activation branch name =
      (.ok (), started proxy.poll proxy.store.mempool.interval proxy.now activation.toNat branch
        name) := by
  obtain ⟨natural, isBranch, isName⟩ := accepts
  have start : heightOfInt activation = .ok activation.toNat := if_neg (Int.not_lt.mpr natural)
  simp only [reset, start, SimChain.reset, isBranch, isName, Bool.not_true, Bool.false_eq_true,
    if_false]
  rfl

theorem resetRefused (refused : ¬ Accepts activation branch name) (proxy : SimProxy) :
    ∃ status, proxy.reset activation branch name = (.error status, proxy) := by
  unfold reset
  rcases Int.lt_or_le activation 0 with negative | natural
  · simp only [heightOfInt, if_pos negative]
    exact ⟨_, rfl⟩
  · simp only [heightOfInt, if_neg (Int.not_lt.mpr natural), SimChain.reset]
    cases isBranch : SimChain.isBranch branch with
    | false => exact ⟨_, rfl⟩
    | true =>
      cases isName : SimChain.isName name with
      | false => exact ⟨_, rfl⟩
      | true => exact absurd ⟨natural, isBranch, isName⟩ refused

end

structure Configured (poll interval : Nat) (proxy : SimProxy) : Prop where
  poll : proxy.poll = poll
  interval : proxy.store.mempool.interval = interval
  turns : ∀ activity, proxy.follower = some activity → activity.job = Follower.turn

theorem freshConfigured (first poll interval : Nat) :
    Configured poll interval (fresh first poll interval) := ⟨rfl, rfl, nofun⟩

def Input.waits : Input → Bool
  | .turn | .pass _ => true
  | _ => false

theorem waitedOnce (overflow : Overflow) {proxy : SimProxy} {time : Nat}
    (ahead : proxy.now ≤ time) : ∃ inputs, (∀ input ∈ inputs, input.waits = true) ∧
      proxy.atTime time = proxy.after overflow inputs := by
  refine ⟨[.pass (time - proxy.now)], by simp [Input.waits], ?_⟩
  show _ = proxy.atTime (proxy.now + (time - proxy.now))
  rw [Nat.add_sub_cancel' ahead]

section
variable {poll interval : Nat} {proxy : SimProxy} (configured : Configured poll interval proxy)
include configured

theorem relativeConfigured {work : SimProxy → α × SimProxy} (relative : Relative asks work) :
    Configured poll interval (work proxy).2 := by
  refine ⟨(relative.poll proxy).trans configured.poll,
    (relative.interval proxy).trans configured.interval, ?_⟩
  rw [relative.follower]
  exact configured.turns

theorem controlledConfigured {after : SimProxy} (controlled : Controlled proxy after) :
    Configured poll interval after := by
  refine ⟨controlled.poll.trans configured.poll, ?_, ?_⟩
  · rw [controlled.store]
    exact configured.interval
  · rcases controlled.follower with same | stopped | ready
    · rw [same]
      exact configured.turns
    · rw [stopped]
      exact nofun
    · rw [ready]
      intro activity same
      cases Option.some.inj same
      rfl

theorem resetConfigured (activation : Int) (branch name : String) :
    Configured poll interval (proxy.reset activation branch name).2 := by
  by_cases accepts : Accepts activation branch name
  · rw [resetGranted accepts]
    exact ⟨configured.poll, configured.interval, nofun⟩
  · obtain ⟨status, refused⟩ := resetRefused accepts proxy
    rw [refused]
    exact configured

theorem turnCases : proxy.turn = proxy ∨ ∃ due pace,
    proxy.turn = { proxy.having (Follower.turn (ι := Empty)) with
      follower := some (.paced due pace) } := by
  unfold turn
  split
  · exact Or.inl rfl
  · rename_i activity following
    split
    · rw [configured.turns activity following, followRun]
      exact Or.inr ⟨_, _, rfl⟩
    · exact Or.inl rfl

theorem turnConfigured : Configured poll interval proxy.turn := by
  rcases turnCases configured with same | ⟨due, pace, turned⟩
  · rw [same]
    exact configured
  · have interval := Job.sameInterval SimChain.answer (Follower.turnRelative (ι := Empty))
      proxy.store proxy.node
    rw [turned]
    refine ⟨configured.poll, interval.trans configured.interval, fun activity same => ?_⟩
    cases Option.some.inj same
    exact Activity.pacedJob due pace

theorem feedConfigured (overflow : Overflow) (input : Input) :
    Configured poll interval (proxy.feed overflow input).2 := by
  cases controls : input.controls with
  | true => exact controlledConfigured configured (feedControlled overflow proxy controls)
  | false =>
    cases input with
    | reset activation branch name => exact resetConfigured configured activation branch name
    | incoming => exact relativeConfigured configured (relativeReceived (incomingRelative proxy))
    | clearIncoming => exact ⟨configured.poll, configured.interval, configured.turns⟩
    | recordIncoming bytes => exact ⟨configured.poll, configured.interval, configured.turns⟩
    | wallet request => exact relativeConfigured configured (relativeServe request)
    | turn => exact turnConfigured configured
    | pass time => exact ⟨configured.poll, configured.interval, configured.turns⟩
    | _ => contradiction

theorem afterConfigured (overflow : Overflow) (inputs : List Input) :
    Configured poll interval (proxy.after overflow inputs) := by
  induction inputs generalizing proxy with
  | nil => exact configured
  | cons input rest ih => exact ih (feedConfigured configured overflow input)

theorem turnNow : proxy.turn.now = proxy.now := by
  unfold turn
  split
  · rfl
  · rename_i activity following
    split
    · rw [configured.turns activity following]
      obtain ⟨after, turned⟩ := turnFollowed proxy
      exact congrArg (·.store.now) turned
    · rfl

theorem turnsNow (overflow : Overflow) (turns : Nat) :
    (proxy.after overflow (List.replicate turns .turn)).now = proxy.now := by
  induction turns generalizing proxy with
  | zero => rfl
  | succ turns ih => exact (ih (turnConfigured configured)).trans (turnNow configured)

theorem passTurns (overflow : Overflow) {time later rounds limit : Nat} {last : SimProxy}
    (reach : limit ≤ time) (more : later ≤ time) (ahead : proxy.now ≤ time)
    (done : Proxy.passWith time later rounds limit proxy = some last) :
    ∃ inputs, (∀ input ∈ inputs, input.waits = true) ∧ last = proxy.after overflow inputs := by
  induction rounds generalizing proxy limit with
  | zero =>
    unfold Proxy.passWith at done
    split at done
    · exact Option.some.inj done ▸ waitedOnce overflow ahead
    · split at done
      · contradiction
      · exact Option.some.inj done ▸ waitedOnce overflow ahead
  | succ rounds ih =>
    unfold Proxy.passWith at done
    split at done
    · exact Option.some.inj done ▸ waitedOnce overflow ahead
    · rename_i activity following
      split at done
      · rename_i due
        obtain ⟨settled, quiet, others⟩ := Option.bind_eq_some_iff.mp done
        obtain ⟨turns, turned⟩ := settleTurns overflow quiet
        have moved : Configured poll interval (proxy.atTime (max proxy.now activity.due)) :=
          ⟨configured.poll, configured.interval, configured.turns⟩
        have now : settled.now = max proxy.now activity.due := by
          rw [turned, turnsNow moved overflow]
          rfl
        obtain ⟨first, waits, reached⟩ :=
          waitedOnce overflow (Nat.le_max_left proxy.now activity.due)
        have further : Configured poll interval settled := by
          rw [turned]
          exact afterConfigured moved overflow _
        obtain ⟨rest, waiting, ends⟩ := ih further more (by omega) others
        refine ⟨first ++ (List.replicate turns .turn ++ rest), ?_, ?_⟩
        · refine List.forall_mem_append.mpr ⟨waits, List.forall_mem_append.mpr ⟨?_, waiting⟩⟩
          intro input member
          rw [List.eq_of_mem_replicate member]
          rfl
        · rw [afterAppend, ← reached, afterAppend, ← turned, ends]
      · exact Option.some.inj done ▸ waitedOnce overflow ahead

theorem passes (overflow : Overflow) (time : Nat) {last : SimProxy}
    (done : Proxy.passTo (proxy.now + time) proxy = some last) :
    ∃ inputs, (∀ input ∈ inputs, input.waits = true) ∧ last = proxy.after overflow inputs :=
  passTurns configured overflow (Nat.le_refl _) (Nat.le_refl _) (Nat.le_add_right _ _) done

end

end SimProxy

end WalletProxy
