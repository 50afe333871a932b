import WalletProxy.Proofs.TreeEndings

/-! Which Orchard tree a tree state comes with. The call follows the pointers of the Sapling tree
and takes the first Orchard tree that it is told on the way. That is the tree of the block it was
asked for as long as the pointers of both pools lead the same way; where they part, it is only if the
Orchard tree has not changed since the block that told it. -/
namespace WalletProxy.Wallet

section Pointers

variable {replies : String → Reply} {param : String}

inductive OrchardFrom (replies : String → Reply) : String → String → Prop where
  | lost {param : String} {error : NodeError} (failed : treeAt replies param = .error error) :
      OrchardFrom replies param ""
  | told {param : String} {reply : TreeReply} (shown : treeAt replies param = .ok reply)
      (stops : ¬ reply.orchard.Points) : OrchardFrom replies param reply.orchard.finalState
  | follows {param tree : String} {reply : TreeReply} (shown : treeAt replies param = .ok reply)
      (points : reply.orchard.Points) (onward : OrchardFrom replies reply.orchard.skipHash tree) :
      OrchardFrom replies param tree

theorem orchardUnique {tree other : String} (first : OrchardFrom replies param tree)
    (second : OrchardFrom replies param other) : tree = other := by
  induction first with
  | lost failed =>
    cases second with
    | lost => rfl
    | told shown => simp [failed] at shown
    | follows shown => simp [failed] at shown
  | told shown stops =>
    cases second with
    | lost failed => simp [failed] at shown
    | told again =>
      cases Except.ok.inj (shown.symm.trans again)
      rfl
    | follows again points =>
      cases Except.ok.inj (shown.symm.trans again)
      exact absurd points stops
  | follows shown points onward ih =>
    cases second with
    | lost failed => simp [failed] at shown
    | told again stops =>
      cases Except.ok.inj (shown.symm.trans again)
      exact absurd points stops
    | follows again _ next =>
      cases Except.ok.inj (shown.symm.trans again)
      exact ih next

/-- The trees that a pool has at all blocks, as a node tells them: where it points to a block, the
tree has not changed since that block. -/
structure Tells (replies : String → Reply) (pool : TreeReply → PoolTree) (held : String → String) :
    Prop where
  told : ∀ {param reply}, treeAt replies param = .ok reply → (pool reply).finalState ≠ "" →
    held param = (pool reply).finalState
  unchanged : ∀ {param reply}, treeAt replies param = .ok reply → (pool reply).Points →
    held param = held (pool reply).skipHash

theorem orchardHeld {held : String → String} (meant : Tells replies TreeReply.orchard held)
    {tree : String} (leads : OrchardFrom replies param tree) (some : tree ≠ "") :
    held param = tree := by
  induction leads with
  | lost failed => exact absurd rfl some
  | told shown stops => exact meant.told shown some
  | follows shown points onward ih => exact (meant.unchanged shown points).trans (ih some)

def tellsOrchard (replies : String → Reply) (param : String) : Bool :=
  match treeAt replies param with
  | .error _ => false
  | .ok reply => reply.orchard.finalState ≠ ""

theorem tellsOrchardOk (tells : tellsOrchard replies param = true) :
    ∃ reply, treeAt replies param = .ok reply ∧ reply.orchard.finalState ≠ "" := by
  unfold tellsOrchard at tells
  split at tells
  · contradiction
  · rename_i reply shown
    exact ⟨reply, shown, of_decide_eq_true tells⟩

theorem orchardAlongHeld {held : String → String} (meant : Tells replies TreeReply.orchard held)
    (params : List String) :
    orchardAlong replies params = (params.find? (tellsOrchard replies)).elim "" held := by
  induction params with
  | nil => rfl
  | cons param rest ih =>
    cases shown : treeAt replies param with
    | error error =>
      have silent : tellsOrchard replies param = false := by simp [tellsOrchard, shown]
      simp only [orchardAlong, shown, List.find?_cons, silent, ih]
    | ok reply =>
      by_cases untold : reply.orchard.finalState = ""
      · have silent : tellsOrchard replies param = false := by simp [tellsOrchard, shown, untold]
        simp only [orchardAlong, shown, List.find?_cons, silent, ih, firstTold, if_pos untold]
      · have tells : tellsOrchard replies param = true := by simp [tellsOrchard, shown, untold]
        simp only [orchardAlong, shown, List.find?_cons, tells, firstTold, if_neg untold,
          Option.elim_some, meant.told shown untold]

/-- From a block on the pointers of both pools lead the same way, until the Orchard tree is told or
neither pool points any further. -/
inductive Together (replies : String → Reply) : String → Prop where
  | told {param : String} {reply : TreeReply} (shown : treeAt replies param = .ok reply)
      (tree : reply.orchard.finalState ≠ "") : Together replies param
  | neither {param : String} {reply : TreeReply} (shown : treeAt replies param = .ok reply)
      (sapling : ¬ reply.sapling.Points) (orchard : ¬ reply.orchard.Points) :
      Together replies param
  | both {param : String} {reply : TreeReply} (shown : treeAt replies param = .ok reply)
      (sapling : reply.sapling.Points) (orchard : reply.orchard.Points)
      (same : reply.orchard.skipHash = reply.sapling.skipHash)
      (onward : Together replies reply.sapling.skipHash) : Together replies param

theorem togetherAlong {params : List String} {last : TreeReply} (together : Together replies param)
    (path : Path replies param params (.ok last)) :
    OrchardFrom replies param (orchardAlong replies params) := by
  induction together generalizing params with
  | @told param reply shown tree =>
    have first : orchardAlong replies params = reply.orchard.finalState := by
      cases path with
      | ends => simp only [orchardAlong, shown, firstTold, if_neg tree]
      | follows => simp only [orchardAlong, shown, firstTold, if_neg tree]
    rw [first]
    exact .told shown fun points => tree points.1
  | neither shown sapling orchard =>
    cases path with
    | ends =>
      simp only [orchardAlong, shown, firstToldEmpty]
      exact .told shown orchard
    | follows again points =>
      cases Except.ok.inj (shown.symm.trans again)
      exact absurd points sapling
  | both shown sapling orchard same onward ih =>
    cases path with
    | ends again stops =>
      cases Except.ok.inj (shown.symm.trans again)
      exact absurd sapling stops
    | follows again _ next =>
      cases Except.ok.inj (shown.symm.trans again)
      simp only [orchardAlong, shown, firstTold, if_pos orchard.1]
      refine .follows shown orchard ?_
      rw [same]
      exact ih next

end Pointers

section Runs

variable {ι ν : Type} {answer : Call → ν → Reply × ν} {replies : String → Reply}

theorem orchardFirstTold (fixed : ∀ param node, (answer (treeCall param) node).1 = replies param)
    {held : String → String} (meant : Tells replies TreeReply.orchard held) {id : BlockId}
    {rounds : Nat} {store : Store} {node : ν} {state : TreeState}
    (succeeded : (Job.run answer (treeState (ι := ι) rounds id) store node).value =
      some (.ok state)) :
    ∃ params last, Path replies id.param params (.ok last) ∧
      state.orchardTree = (params.find? (tellsOrchard replies)).elim "" held ∧
      ∀ tree, OrchardFrom replies id.param tree →
        (state.orchardTree = tree ↔
          match params.find? (tellsOrchard replies) with
          | some block => tree ≠ "" ∧ held block = held id.param
          | none => tree = "") ∧
        (Together replies id.param → state.orchardTree = tree) := by
  have named : 0 < id.height ∨ id.hash ≠ [] := by
    refine (unnamedOrNamed id).resolve_left fun unnamed => ?_
    rw [treeStateUnnamed unnamed] at succeeded
    cases succeeded
  obtain ⟨params, ending, path, enough⟩ := answeredPath fixed named succeeded
  obtain ⟨calls, result, _, runs, tells⟩ := treeStateAlong (ι := ι) fixed named path store node
  rw [runs rounds enough] at succeeded
  obtain ⟨last, rfl, taken⟩ := tells state (Option.some.inj succeeded)
  have first := taken.trans (orchardAlongHeld meant params)
  refine ⟨params, last, path, first, fun tree leads => ⟨?_, fun together => ?_⟩⟩
  · rw [first]
    cases found : params.find? (tellsOrchard replies) with
    | none => exact eq_comm
    | some block =>
      obtain ⟨reply, shown, told⟩ := tellsOrchardOk (List.find?_some found)
      have some : held block ≠ "" := by
        rw [meant.told shown told]
        exact told
      constructor
      · intro same
        rw [Option.elim_some] at same
        have there : tree ≠ "" := same ▸ some
        exact ⟨there, same.trans (orchardHeld meant leads there).symm⟩
      · rintro ⟨there, unchanged⟩
        exact unchanged.trans (orchardHeld meant leads there)
  · rw [taken]
    exact orchardUnique (togetherAlong together path) leads

end Runs

/-- A node whose Sapling tree changed last at height 10 and whose Orchard tree at height 20. At
height 30 both are as before: the Orchard tree since height 20, the Sapling tree since this block. -/
def changing (since param : String) : Reply :=
  let pool (skipHash finalState : String) : Json :=
    .object [("commitments", .object [("finalState", .text finalState)]),
      ("skipHash", .text skipHash)]
  let told (hash : String) (height time : Nat) (orchard sapling : Json) : Reply :=
    .ok (.object [("hash", .text hash), ("height", .nat height), ("orchard", orchard),
      ("sapling", sapling), ("time", .nat time)])
  match param with
  | "30" => told "0030" 30 9 (pool "0020" "") (pool since "")
  | "0020" => told "0020" 20 7 (pool "" "cc") (pool "0010" "")
  | "0010" => told "0010" 10 4 (pool "" "bb") (pool "" "aa")
  | _ => .error (.reported (-8) "no such block")

def changed (since : String) (call : Call) (log : List Call) : Reply × List Call :=
  let reply : Reply :=
    match call.method, call.params with
    | "z_gettreestate", [.text param] => changing since param
    | _, _ => .ok (.object [("chain", .text "main")])
  (reply, log ++ [call])

def changingOrchard (param : String) : String := if param = "0010" then "bb" else "cc"

theorem changingCases {since param : String} {reply : TreeReply}
    (told : treeAt (changing since) param = .ok reply) :
    (param = "30" ∧ reply = ⟨"0030", 30, 9, ⟨since, ""⟩, ⟨"0020", ""⟩⟩) ∨
      (param = "0020" ∧ reply = ⟨"0020", 20, 7, ⟨"0010", ""⟩, ⟨"", "cc"⟩⟩) ∨
      (param = "0010" ∧ reply = ⟨"0010", 10, 4, ⟨"", "aa"⟩, ⟨"", "bb"⟩⟩) := by
  unfold treeAt changing at told
  split at told
  · cases told
    exact .inl ⟨rfl, rfl⟩
  · cases told
    exact .inr (.inl ⟨rfl, rfl⟩)
  · cases told
    exact .inr (.inr ⟨rfl, rfl⟩)
  · cases told

theorem changingTellsOrchard (since : String) :
    Tells (changing since) TreeReply.orchard changingOrchard := by
  constructor
  · intro param reply told tree
    obtain ⟨rfl, rfl⟩ | ⟨rfl, rfl⟩ | ⟨rfl, rfl⟩ := changingCases told
    · exact absurd rfl tree
    · rfl
    · rfl
  · intro param reply told points
    obtain ⟨rfl, rfl⟩ | ⟨rfl, rfl⟩ | ⟨rfl, rfl⟩ := changingCases told
    · rfl
    · exact absurd rfl points.2
    · exact absurd rfl points.2

theorem changingTellsSapling (since : String) :
    Tells (changing since) TreeReply.sapling fun _ => "aa" := by
  constructor
  · intro param reply told tree
    obtain ⟨rfl, rfl⟩ | ⟨rfl, rfl⟩ | ⟨rfl, rfl⟩ := changingCases told
    · exact absurd rfl tree
    · exact absurd rfl tree
    · rfl
  · intro param reply told points
    rfl

theorem changingLeads (since : String) : OrchardFrom (changing since) "30" "cc" := by
  have requested : treeAt (changing since) "30" =
      .ok ⟨"0030", 30, 9, ⟨since, ""⟩, ⟨"0020", ""⟩⟩ := rfl
  have earlier : treeAt (changing since) "0020" =
      .ok ⟨"0020", 20, 7, ⟨"0010", ""⟩, ⟨"", "cc"⟩⟩ := rfl
  have named : "0020" ≠ "" := by decide
  exact .follows requested ⟨rfl, named⟩ (.told earlier fun points => points.2 rfl)

theorem togetherTold :
    let store : Store := { now := 0, window := .startingAt 1, mempool := .fresh 2000 }
    let state : TreeState := ⟨"main", 30, "0030", 9, "aa", "cc"⟩
    (∀ param log, (changed "0020" (treeCall param) log).1 = changing "0020" param) ∧
      Tells (changing "0020") TreeReply.orchard changingOrchard ∧
      (Job.run (changed "0020") (treeState (ι := Empty) 2 ⟨30, []⟩) store []).value =
        some (.ok state) ∧
      OrchardFrom (changing "0020") "30" "cc" ∧ state.orchardTree = "cc" := by
  intro store state
  have fixed : ∀ param log, (changed "0020" (treeCall param) log).1 = changing "0020" param :=
    fun _ _ => rfl
  have meant := changingTellsOrchard "0020"
  have succeeded : (Job.run (changed "0020") (treeState (ι := Empty) 2 ⟨30, []⟩) store []).value =
      some (.ok state) := rfl
  have requested : treeAt (changing "0020") "30" =
      .ok ⟨"0030", 30, 9, ⟨"0020", ""⟩, ⟨"0020", ""⟩⟩ := rfl
  have earlier : treeAt (changing "0020") "0020" =
      .ok ⟨"0020", 20, 7, ⟨"0010", ""⟩, ⟨"", "cc"⟩⟩ := rfl
  have together : Together (changing "0020") "30" :=
    .both requested ⟨rfl, by decide⟩ ⟨rfl, by decide⟩ rfl (.told earlier (by decide))
  obtain ⟨params, last, path, _, agrees⟩ := orchardFirstTold fixed meant succeeded
  exact ⟨fixed, meant, succeeded, changingLeads _, (agrees "cc" (changingLeads _)).2 together⟩

/- The Sapling pointer leads past the block that changed the Orchard tree last. -/
theorem partedOrchardStale :
    let store : Store := { now := 0, window := .startingAt 1, mempool := .fresh 2000 }
    (∀ param log, (changed "0010" (treeCall param) log).1 = changing "0010" param) ∧
      Tells (changing "0010") TreeReply.sapling (fun _ => "aa") ∧
      Tells (changing "0010") TreeReply.orchard changingOrchard ∧
      OrchardFrom (changing "0010") "30" "cc" ∧
      Job.run (changed "0010") (treeState (ι := Empty) 1 ⟨30, []⟩) store [] =
        ⟨some (.ok ⟨"main", 30, "0030", 9, "aa", "bb"⟩), [], store,
          [treeCall "30", treeCall "0010", Node.infoCall]⟩ :=
  ⟨fun _ _ => rfl, changingTellsSapling _, changingTellsOrchard _, changingLeads _, rfl⟩

end WalletProxy.Wallet
