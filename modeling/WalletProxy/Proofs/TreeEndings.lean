import WalletProxy.Proofs.TreePointers

/-! Whether the call for the tree state ever answers. It does where the path of the pointers ends,
with one question for each block of the path and at most one for the chain; where the path does not
end, it asks on and on. Pointers to earlier blocks always come to an end, pointers that go round
never. -/
namespace WalletProxy

theorem Json.int64Low {json : Json} {value : Int} (read : json.int64? = some value) :
    Int64.minValue.toInt ≤ value := by
  obtain ⟨_, within⟩ := Option.filter_eq_some_iff.mp read
  rw [Bool.and_eq_true, decide_eq_true_eq] at within
  exact within.1

theorem TreeReply.heightLow {json : Json} {reply : TreeReply}
    (read : TreeReply.ofJson? json = some reply) : Int64.minValue.toInt ≤ reply.height := by
  unfold TreeReply.ofJson? at read
  obtain ⟨fields, _, read⟩ := Option.bind_eq_some_iff.mp read
  split at read
  · obtain ⟨hash, _, read⟩ := Option.bind_eq_some_iff.mp read
    obtain ⟨height, number, read⟩ := Option.bind_eq_some_iff.mp read
    obtain ⟨time, _, read⟩ := Option.bind_eq_some_iff.mp read
    obtain ⟨sapling, _, read⟩ := Option.bind_eq_some_iff.mp read
    obtain ⟨orchard, _, read⟩ := Option.bind_eq_some_iff.mp read
    cases read
    exact Json.int64Low number
  · contradiction

namespace Wallet

section Trails

variable {replies : String → Reply}

inductive Trail (replies : String → Reply) : String → List String → Prop where
  | start (param : String) : Trail replies param []
  | follows {param : String} {reply : TreeReply} {params : List String}
      (told : treeAt replies param = .ok reply) (points : reply.sapling.Points)
      (onward : Trail replies reply.sapling.skipHash params) : Trail replies param (param :: params)

theorem pathOrTrail (count : Nat) (param : String) :
    (∃ params ending, Path replies param params ending ∧ params.length ≤ count) ∨
      ∃ params, Trail replies param params ∧ params.length = count := by
  induction count generalizing param with
  | zero => exact .inr ⟨[], .start param, rfl⟩
  | succ count ih =>
    cases told : treeAt replies param with
    | error error => exact .inl ⟨[param], _, .refused told, Nat.le_add_left 1 count⟩
    | ok reply =>
      by_cases points : reply.sapling.Points
      · rcases ih reply.sapling.skipHash with ends | goesOn
        · obtain ⟨params, ending, onward, short⟩ := ends
          exact .inl ⟨_, _, .follows told points onward, Nat.succ_le_succ short⟩
        · obtain ⟨params, onward, size⟩ := goesOn
          exact .inr ⟨_, .follows told points onward, congrArg (· + 1) size⟩
      · exact .inl ⟨[param], _, .ends told points, Nat.le_add_left 1 count⟩

def PointsEarlier (replies : String → Reply) : Prop :=
  ∀ {param : String} {reply earlier : TreeReply}, treeAt replies param = .ok reply →
    reply.sapling.Points → treeAt replies reply.sapling.skipHash = .ok earlier →
      earlier.height < reply.height

/- By induction on how far the height is from the least that can be told. -/
theorem pathBelow (earlier : PointsEarlier replies) (bound : Nat) (param : String)
    (below : ∀ reply, treeAt replies param = .ok reply →
      reply.height < Int64.minValue.toInt + bound) :
    ∃ params ending, Path replies param params ending := by
  induction bound generalizing param with
  | zero =>
    cases told : treeAt replies param with
    | error error => exact ⟨_, _, .refused told⟩
    | ok reply =>
      obtain ⟨json, _, read⟩ := Node.readReplyOk.mp told
      have low := TreeReply.heightLow read
      have high := below reply told
      omega
  | succ bound ih =>
    cases told : treeAt replies param with
    | error error => exact ⟨_, _, .refused told⟩
    | ok reply =>
      by_cases points : reply.sapling.Points
      · have lower : ∀ next, treeAt replies reply.sapling.skipHash = .ok next →
            next.height < Int64.minValue.toInt + bound := by
          intro next there
          have falls := earlier told points there
          have high := below reply told
          omega
        obtain ⟨params, ending, onward⟩ := ih reply.sapling.skipHash lower
        exact ⟨_, _, .follows told points onward⟩
      · exact ⟨_, _, .ends told points⟩

theorem earlierPath (earlier : PointsEarlier replies) (param : String) :
    ∃ params ending, Path replies param params ending := by
  cases told : treeAt replies param with
  | error error => exact ⟨_, _, .refused told⟩
  | ok reply =>
    refine pathBelow earlier (reply.height - Int64.minValue.toInt + 1).toNat param ?_
    intro again same
    cases Except.ok.inj (told.symm.trans same)
    omega

end Trails

section Runs

variable {ι ν : Type} {answer : Call → ν → Reply × ν} {replies : String → Reply} {id : BlockId}
  {params : List String} {ending : Except NodeError TreeReply} {store : Store} {node : ν}

/-- The call comes to this result after these calls to the node: with rounds enough, however many
they are. -/
def Answers (answer : Call → ν → Reply × ν) (id : BlockId) (store : Store) (node : ν)
    (calls : List Call) (result : Except Status TreeState) : Prop :=
  ∃ enough, ∀ rounds, enough ≤ rounds →
    Job.run answer (treeState (ι := Empty) rounds id) store node =
      ⟨some result, [], store, Job.called answer calls node⟩

/-- However many rounds the call is given, it asks a question in each and comes to no result. -/
def AsksOn (answer : Call → ν → Reply × ν) (id : BlockId) (store : Store) (node : ν) : Prop :=
  ∀ rounds, ∃ params : List String, params.length = rounds + 1 ∧
    Job.run answer (treeState (ι := Empty) rounds id) store node =
      ⟨none, [], store, Job.called answer (params.map treeCall) node⟩

theorem unnamedOrNamed (id : BlockId) :
    (id.height = 0 ∧ id.hash = []) ∨ (0 < id.height ∨ id.hash ≠ []) := by
  rcases Nat.eq_zero_or_pos id.height with low | high
  · by_cases nameless : id.hash = []
    · exact .inl ⟨low, nameless⟩
    · exact .inr (.inr nameless)
  · exact .inr (.inl high)

theorem treeStateUnnamed (unnamed : id.height = 0 ∧ id.hash = []) (rounds : Nat) :
    Job.run answer (treeState (ι := ι) rounds id) store node =
      ⟨some (.error (Handler.invalid "request for unspecified identifier")), [], store, node⟩ := by
  obtain ⟨height, hash⟩ := id
  obtain ⟨rfl, rfl⟩ := unnamed
  rfl

theorem unnamedAnswers (unnamed : id.height = 0 ∧ id.hash = []) (store : Store) (node : ν) :
    ∃ result, Answers answer id store node [] result :=
  ⟨_, 0, fun rounds _ => treeStateUnnamed unnamed rounds⟩

theorem asksOnNeverAnswers (asks : AsksOn answer id store node) :
    ¬ ∃ calls result, Answers answer id store node calls result := by
  rintro ⟨calls, result, enough, runs⟩
  obtain ⟨params, _, stillAsking⟩ := asks enough
  cases stillAsking.symm.trans (runs enough (Nat.le_refl enough))

section Fixed

variable (fixed : ∀ param node, (answer (treeCall param) node).1 = replies param)

include fixed

theorem trailRun {param : String} (trail : Trail replies param params) {trees : Trees}
    (points : trees.sapling.Points) (start : trees.sapling.skipHash = param) (store : Store)
    (node : ν) :
    Job.run answer (followPointers (ι := ι) params.length trees) store node =
      ⟨none, [], store, Job.called answer (params.map treeCall) node⟩ := by
  induction trail generalizing trees node with
  | start =>
    rw [List.length_nil, followPointers, if_pos (isPointerIff.mpr points)]
    rfl
  | follows told again onward ih =>
    rw [List.length_cons, followAsks fixed points, start, told]
    exact ih again rfl _

theorem treeStateGoesOn (named : 0 < id.height ∨ id.hash ≠ []) {rounds : Nat}
    (trail : Trail replies id.param params) (size : params.length = rounds + 1) (store : Store)
    (node : ν) :
    Job.run answer (treeState (ι := ι) rounds id) store node =
      ⟨none, [], store, Job.called answer (params.map treeCall) node⟩ := by
  cases trail with
  | start => contradiction
  | follows told points onward =>
    cases Nat.succ.inj size
    have followed := trailRun (ι := ι) fixed onward
      (show (Trees.ofReply _).sapling.Points from points) rfl store
      (answer (treeCall id.param) node).2
    unfold treeAt at told
    simp only [treeState, treeParamNamed named, Job.run, fixed, told]
    show Job.run answer (Job.bind (followPointers _ _) _) store _ = _
    rw [Job.runBind, followed]
    rfl

theorem treeStateAlong (named : 0 < id.height ∨ id.hash ≠ [])
    (path : Path replies id.param params ending) (store : Store) (node : ν) :
    ∃ calls result, calls.length ≤ params.length + 1 ∧
      (∀ rounds, params.length ≤ rounds + 1 →
        Job.run answer (treeState (ι := ι) rounds id) store node =
          ⟨some result, [], store, Job.called answer calls node⟩) ∧
      ∀ state, result = .ok state →
        ∃ last, ending = .ok last ∧ state.orchardTree = orchardAlong replies params := by
  have asked := treeParamNamed named
  have counted : (params.map treeCall).length ≤ params.length + 1 := by
    rw [List.length_map]
    exact Nat.le_succ _
  cases ending with
  | error error =>
    refine ⟨params.map treeCall, .error error.status, counted, ?_, fun state impossible => nomatch impossible⟩
    intro rounds enough
    cases told : treeAt replies id.param with
    | error first =>
      cases path with
      | refused failed => exact treeStateRefused fixed asked failed rounds store node
      | follows again => simp [told] at again
    | ok requested =>
      exact treeStateStops fixed asked told (followRequested fixed path told enough store node)
  | ok last =>
    obtain ⟨requested, told⟩ := pathTold path
    obtain ⟨_, orchard⟩ := alongPath path rfl .empty
    let trees := Trees.along replies .empty params
    let after := Job.called answer (params.map treeCall) node
    by_cases missing : trees.sapling.finalState = ""
    · refine ⟨params.map treeCall, _, counted, fun rounds enough =>
        treeStateEnds fixed asked told (followRequested fixed path told enough store node)
          (treeAnswerMissing missing requested store after), fun state impossible => nomatch impossible⟩
    · have found : Job.run answer (treeAnswer (ι := ι) requested trees).run store after = _ :=
        treeAnswerFound missing requested store after
      refine ⟨params.map treeCall ++ [Node.infoCall],
        (Job.run answer (treeAnswer (ι := ι) requested trees).run store after).value, by simp,
        fun rounds enough => treeStateEnds fixed asked told
          (followRequested fixed path told enough store node) ?_, fun state given => ?_⟩
      · rw [found, Job.called, List.foldl_append]
        rfl
      · rw [found] at given
        obtain ⟨info, _, rfl⟩ := Results.mapOk.mp given
        exact ⟨last, rfl, orchard⟩

theorem answeredPath (named : 0 < id.height ∨ id.hash ≠ []) {rounds : Nat}
    {result : Except Status TreeState}
    (answered : (Job.run answer (treeState (ι := ι) rounds id) store node).value = some result) :
    ∃ params ending, Path replies id.param params ending ∧ params.length ≤ rounds + 1 := by
  rcases pathOrTrail (rounds + 1) id.param with ends | goesOn
  · exact ends
  · obtain ⟨params, trail, size⟩ := goesOn
    rw [treeStateGoesOn fixed named trail size] at answered
    contradiction

theorem pathAnswers (path : Path replies id.param params ending) (store : Store) (node : ν) :
    ∃ calls result, calls.length ≤ params.length + 1 ∧ Answers answer id store node calls result := by
  rcases unnamedOrNamed id with unnamed | named
  · obtain ⟨result, answers⟩ := unnamedAnswers unnamed store node
    exact ⟨[], result, Nat.zero_le _, answers⟩
  · obtain ⟨calls, result, few, runs, _⟩ := treeStateAlong (ι := Empty) fixed named path store node
    exact ⟨calls, result, few, params.length, fun rounds enough => runs rounds (Nat.le_succ_of_le enough)⟩

theorem asksOn (named : 0 < id.height ∨ id.hash ≠ [])
    (endless : ¬ ∃ params ending, Path replies id.param params ending) (store : Store) (node : ν) :
    AsksOn answer id store node := by
  intro rounds
  rcases pathOrTrail (rounds + 1) id.param with ends | goesOn
  · obtain ⟨params, ending, path, _⟩ := ends
    exact absurd ⟨params, ending, path⟩ endless
  · obtain ⟨params, trail, size⟩ := goesOn
    exact ⟨params, size, treeStateGoesOn fixed named trail size store node⟩

theorem endsWithPointers (id : BlockId) (store : Store) (node : ν) :
    ((∃ calls result, Answers answer id store node calls result) ↔
      (id.height = 0 ∧ id.hash = []) ∨ ∃ params ending, Path replies id.param params ending) ∧
    (∀ params ending, Path replies id.param params ending → ∃ calls result,
      calls.length ≤ params.length + 1 ∧ Answers answer id store node calls result) ∧
    ((¬ ∃ calls result, Answers answer id store node calls result) → AsksOn answer id store node) ∧
    (PointsEarlier replies → ∃ calls result, Answers answer id store node calls result) := by
  have along : (∃ params ending, Path replies id.param params ending) →
      ∃ calls result, Answers answer id store node calls result := by
    rintro ⟨params, ending, path⟩
    obtain ⟨calls, result, _, answers⟩ := pathAnswers fixed path store node
    exact ⟨calls, result, answers⟩
  refine ⟨⟨?_, ?_⟩, fun _ _ path => pathAnswers fixed path store node, ?_,
    fun earlier => along (earlierPath earlier id.param)⟩
  · rintro ⟨calls, result, enough, runs⟩
    refine (unnamedOrNamed id).imp_right fun named => ?_
    have value := congrArg Job.Outcome.value (runs enough (Nat.le_refl enough))
    obtain ⟨params, ending, path, _⟩ := answeredPath fixed named value
    exact ⟨params, ending, path⟩
  · rintro (unnamed | ends)
    · exact ⟨[], unnamedAnswers unnamed store node⟩
    · exact along ends
  · intro never
    rcases unnamedOrNamed id with unnamed | named
    · exact absurd ⟨[], unnamedAnswers unnamed store node⟩ never
    · exact asksOn fixed named (fun ends => never (along ends)) store node

end Fixed

end Runs

theorem relayedEarlier : PointsEarlier relayed := by
  intro param reply earlier told points there
  unfold treeAt relayed at told
  split at told
  · cases told
    cases there
    decide
  · cases told
    cases there
    decide
  · cases told
    exact absurd rfl points.2
  · cases told

theorem relayedAnswers :
    let store : Store := { now := 0, window := .startingAt 1, mempool := .fresh 2000 }
    (∀ param log, (relaying (treeCall param) log).1 = relayed param) ∧
      ∃ calls result, Answers relaying ⟨30, []⟩ store [] calls result := by
  have fixed : ∀ param log, (relaying (treeCall param) log).1 = relayed param := fun _ _ => rfl
  exact ⟨fixed, (endsWithPointers fixed ⟨30, []⟩ _ []).2.2.2 relayedEarlier⟩

def circled (_ : String) : Reply :=
  .ok (.object [("hash", .text "0020"), ("height", .nat 20),
    ("sapling", .object [("skipHash", .text "0020")]), ("time", .nat 7)])

def circling (call : Call) (log : List Call) : Reply × List Call :=
  let reply : Reply :=
    match call.method, call.params with
    | "z_gettreestate", [.text param] => circled param
    | _, _ => .ok (.object [("chain", .text "main")])
  (reply, log ++ [call])

theorem circlingNeverAnswers :
    let store : Store := { now := 0, window := .startingAt 1, mempool := .fresh 2000 }
    (∀ param log, (circling (treeCall param) log).1 = circled param) ∧
      (∀ param, treeAt circled param = .ok ⟨"0020", 20, 7, ⟨"0020", ""⟩, .empty⟩) ∧
      AsksOn circling ⟨20, []⟩ store [] ∧
      ¬ ∃ calls result, Answers circling ⟨20, []⟩ store [] calls result := by
  have fixed : ∀ param log, (circling (treeCall param) log).1 = circled param := fun _ _ => rfl
  have told : ∀ param, treeAt circled param = .ok ⟨"0020", 20, 7, ⟨"0020", ""⟩, .empty⟩ := fun _ => rfl
  have endless : ∀ {param params ending}, ¬ Path circled param params ending := by
    intro param params ending path
    induction path with
    | refused failed => cases (told _).symm.trans failed
    | ends again stops =>
      cases Except.ok.inj ((told _).symm.trans again)
      exact stops ⟨rfl, by decide⟩
    | follows again points onward ih => exact ih
  have asks : AsksOn circling ⟨20, []⟩ { now := 0, window := .startingAt 1, mempool := .fresh 2000 } [] :=
    asksOn fixed (.inl (by decide)) (fun ends => endless ends.choose_spec.choose_spec) _ []
  exact ⟨fixed, told, asks, asksOnNeverAnswers asks⟩

end Wallet

end WalletProxy
