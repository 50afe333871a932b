import WalletProxy.Proofs.SessionSteps

/-! A reset ends a session without a trace. What a session does depends on the clock only through
time that has passed within it, and a reset leaves nothing of before but the clock; so after it all
goes the same way, whatever the sessions before it were. -/
namespace WalletProxy.SimProxy
open Unsigned (Overflow)

section
variable (proxy : SimProxy) (delay : Nat)

theorem laterStageTexts (texts : List String) :
    (proxy.later delay).stageTexts texts = Prod.map id (later delay) (proxy.stageTexts texts) := by
  induction texts generalizing proxy with
  | nil => rfl
  | cons text rest ih =>
    unfold stageTexts
    cases Hex.decode (String.ofList (Text.trim text.toList)) with
    | error fault => rfl
    | ok bytes =>
      simp only [onChain, later]
      cases proxy.node.stageBlock bytes with
      | mk result node =>
        cases result with
        | error fault => rfl
        | ok done => exact ih { proxy with node }

theorem laterAtHeight (height : Int) (refused : Status → α) {next onward : Nat → α × SimProxy}
    (same : ∀ height, onward height = Prod.map id (later delay) (next height)) :
    (proxy.later delay).atHeight height refused onward =
      Prod.map id (later delay) (proxy.atHeight height refused next) := by
  unfold atHeight
  split
  · rfl
  · exact same _

theorem laterStageFiller (overflow : Overflow) (height : Int) (nonce : Int32) (count : Int) :
    (proxy.later delay).stageFiller overflow height nonce count =
      Prod.map id (later delay) (proxy.stageFiller overflow height nonce count) :=
  laterAtHeight proxy delay height _ fun _ => laterAtHeight proxy delay count _ fun _ => rfl

theorem laterStageTxFile (height : Int) (fetched : Except String String) :
    (proxy.later delay).stageTxFile height fetched =
      Prod.map id (later delay) (proxy.stageTxFile height fetched) :=
  laterAtHeight proxy delay height _ fun _ => rfl

theorem laterApplyStaged (overflow : Overflow) (height : Int) :
    (proxy.later delay).applyStaged overflow height =
      Prod.map id (later delay) (proxy.applyStaged overflow height) := by
  refine laterAtHeight proxy delay height _ fun height => ?_
  simp only [onChain?, later]
  cases proxy.node.commit overflow height with
  | mk result node =>
    cases result with
    | none => rfl
    | some result =>
      cases result with
      | error fault => rfl
      | ok done =>
        dsimp only [Option.map_some, Except.mapError]
        split
        · rfl
        · rfl

theorem laterReset (activation : Int) (branch name : String) :
    (proxy.later delay).reset activation branch name =
      Prod.map id (later delay) (proxy.reset activation branch name) := by
  unfold reset
  cases heightOfInt activation with
  | error fault => rfl
  | ok start =>
    dsimp only [later]
    cases proxy.node.reset start branch name with
    | mk result node =>
      cases result with
      | error fault => rfl
      | ok done => rfl

end

section
variable {poll interval : Nat} {proxy : SimProxy} (configured : Configured poll interval proxy)
  (delay : Nat)
include configured

theorem laterTurn : (proxy.later delay).turn = proxy.turn.later delay := by
  unfold turn
  cases following : proxy.follower with
  | none => simp only [later, following, Option.map_none]
  | some activity =>
    have same : (proxy.later delay).follower = some (activity.later delay) := by
      simp only [later, following, Option.map_some]
    have now : (proxy.later delay).now = proxy.now + delay := rfl
    rw [same]
    simp only [Activity.laterJob, now, Activity.laterDue, configured.turns activity following]
    split
    · have ended := Job.laterRuns SimChain.answer (Follower.turnRelative (ι := Empty)) delay
        proxy.store proxy.node
      rw [followRun, followRun]
      simp only [later, ended, Store.laterNow, Option.map_some, Activity.laterPaced,
        Nat.add_right_comm]
    · rfl

theorem laterFeed (overflow : Overflow) (input : Input) :
    (proxy.later delay).feed overflow input =
      Prod.map id (later delay) (proxy.feed overflow input) := by
  cases input with
  | reset activation branch name =>
    exact congrArg (Prod.map _ id) (laterReset proxy delay activation branch name)
  | stageTexts texts => exact congrArg (Prod.map _ id) (laterStageTexts proxy delay texts)
  | stageFile fetched => rfl
  | stageFiller height nonce count =>
    exact congrArg (Prod.map _ id) (laterStageFiller proxy delay overflow height nonce count)
  | stageTxs txs => rfl
  | stageTxFile height fetched =>
    exact congrArg (Prod.map _ id) (laterStageTxFile proxy delay height fetched)
  | applyStaged height =>
    exact congrArg (Prod.map _ id) (laterApplyStaged proxy delay overflow height)
  | incoming =>
    exact congrArg (Prod.map _ id) ((relativeReceived (incomingRelative proxy)).later proxy delay)
  | clearIncoming => rfl
  | recordIncoming bytes => rfl
  | wallet request =>
    exact congrArg (Prod.map _ id) ((relativeServe request).later proxy delay)
  | turn => exact congrArg (Prod.mk _) (laterTurn configured delay)
  | pass time =>
    show (Output.nothing, (proxy.later delay).atTime (proxy.now + delay + time)) = _
    rw [Nat.add_right_comm]
    rfl

theorem laterRecord (overflow : Overflow) (inputs : List Input) :
    (proxy.later delay).record overflow inputs = proxy.record overflow inputs := by
  induction inputs generalizing proxy with
  | nil => rfl
  | cons input rest ih =>
    unfold record
    rw [laterFeed configured delay overflow input]
    exact congrArg _ (ih (feedConfigured configured overflow input))

end

theorem startedRecord (overflow : Overflow) (poll interval now activation : Nat)
    (branch name : String) (inputs : List Input) :
    (started poll interval now activation branch name).record overflow inputs =
      (started poll interval 0 activation branch name).record overflow inputs := by
  have configured : Configured poll interval (started poll interval 0 activation branch name) :=
    ⟨rfl, rfl, nofun⟩
  rw [← laterRecord configured now overflow inputs]
  simp only [started, later, Store.later, Nat.zero_add]
  rfl

theorem resetIsolates (overflow : Overflow) (first other poll interval : Nat)
    (before past : List Input) (activation : Int) (branch name : String) :
    let one := (fresh first poll interval).after overflow before
    let two := (fresh other poll interval).after overflow past
    let begun := one.reset activation branch name
    let again := two.reset activation branch name
    (Accepts activation branch name →
      begun.1 = .ok () ∧ again.1 = .ok () ∧ again.2 = begun.2.atTime two.now ∧
      (∀ inputs, again.2.record overflow inputs = begun.2.record overflow inputs) ∧
      begun.2.store.window = .startingAt activation.toNat ∧
      begun.2.store.mempool.snapshot = .empty ∧
      (∀ time, begun.2.store.mempool.isOpen time = true) ∧ begun.2.follower = none) ∧
    (¬ Accepts activation branch name → ∃ status, begun = (.error status, one)) := by
  intro one two begun again
  have own : Configured poll interval one :=
    afterConfigured (freshConfigured first poll interval) overflow before
  have others : Configured poll interval two :=
    afterConfigured (freshConfigured other poll interval) overflow past
  constructor
  · intro accepts
    have granted : begun = (.ok (), started poll interval one.now activation.toNat branch name) :=
      own.poll ▸ own.interval ▸ resetGranted accepts one
    have too : again = (.ok (), started poll interval two.now activation.toNat branch name) :=
      others.poll ▸ others.interval ▸ resetGranted accepts two
    rw [granted, too]
    refine ⟨rfl, rfl, rfl, fun inputs => ?_, rfl, rfl, fun _ => rfl, rfl⟩
    -- Either record is that of a session which starts at time 0.
    rw [startedRecord, startedRecord overflow poll interval one.now]
  · intro refused
    exact resetRefused refused one

def earlier : List Input :=
  [.reset 7 "ff" "old", .wallet (.mempoolTxs []), .wallet (.send ⟨[9], 0⟩), .pass 500]

theorem earlierForgotten :
    let one := fresh 1 2000 2000
    let two := (fresh 7 2000 2000).after .ends earlier
    Accepts 1 "c2d6d0b4" "regtest" ∧ two.node.incoming = [[9]] ∧
    two.store.mempool.refreshedAt = some 0 ∧ two.now = 500 ∧
    (∀ inputs, (two.reset 1 "c2d6d0b4" "regtest").2.record .ends inputs =
      (one.reset 1 "c2d6d0b4" "regtest").2.record .ends inputs) ∧
    ¬ Accepts 1 "c2d6d0b4" "reg-test" ∧
    ∃ status, one.reset 1 "c2d6d0b4" "reg-test" = (.error status, one) := by
  intro one two
  have accepts : Accepts 1 "c2d6d0b4" "regtest" := ⟨by decide, by rfl, by rfl⟩
  have refuses : ¬ Accepts 1 "c2d6d0b4" "reg-test" := fun accepts => by
    have named : SimChain.isName "reg-test" = true := accepts.2.2
    exact absurd named (by decide +kernel)
  obtain ⟨_, _, _, same, _⟩ :=
    (resetIsolates .ends 1 7 2000 2000 [] earlier 1 "c2d6d0b4" "regtest").1 accepts
  have unchanged := (resetIsolates .ends 1 7 2000 2000 [] earlier 1 "c2d6d0b4" "reg-test").2 refuses
  exact ⟨accepts, by rfl, by rfl, by rfl, same, refuses, unchanged⟩

end WalletProxy.SimProxy
