import WalletProxy.Proofs.HandlerRun
import WalletProxy.Wallet.Trees

/-! The pointers of the Sapling tree. Of a node that always tells the same of a block, the pointers
from one block on make a path, which ends at an error, at a tree, or at neither. The call for the
tree state asks along this path, for no block twice, and answers with the tree at its end and with
the block at its beginning. -/
namespace WalletProxy

def Job.called {ν : Type} (answer : Call → ν → Reply × ν) (calls : List Call) (node : ν) : ν :=
  calls.foldl (fun node call => (answer call node).2) node

def PoolTree.Points (tree : PoolTree) : Prop := tree.finalState = "" ∧ tree.skipHash ≠ ""

namespace Wallet

def BlockId.param (id : BlockId) : String :=
  if 0 < id.height then toString id.height else Hex.encode id.hash

def treeAt (replies : String → Reply) (param : String) : Except NodeError TreeReply :=
  Node.readReply TreeReply.ofJson? (replies param)

/-- The path of the pointers from a block on: what is asked for on the way, and what the last
question comes to. -/
inductive Path (replies : String → Reply) : String → List String → Except NodeError TreeReply → Prop
    where
  | refused {param : String} {error : NodeError} (failed : treeAt replies param = .error error) :
      Path replies param [param] (.error error)
  | ends {param : String} {last : TreeReply} (told : treeAt replies param = .ok last)
      (stops : ¬ last.sapling.Points) : Path replies param [param] (.ok last)
  | follows {param : String} {reply : TreeReply} {params : List String}
      {ending : Except NodeError TreeReply} (told : treeAt replies param = .ok reply)
      (points : reply.sapling.Points) (onward : Path replies reply.sapling.skipHash params ending) :
      Path replies param (param :: params) ending

section Paths

variable {replies : String → Reply} {param : String} {params : List String}
  {ending : Except NodeError TreeReply}

theorem pathUnique {others : List String} {other : Except NodeError TreeReply}
    (path : Path replies param params ending) (second : Path replies param others other) :
    params = others := by
  induction path generalizing others with
  | refused failed =>
    cases second with
    | refused => rfl
    | ends told => simp [failed] at told
    | follows told => simp [failed] at told
  | ends told stops =>
    cases second with
    | refused => rfl
    | ends => rfl
    | follows again points =>
      cases Except.ok.inj (told.symm.trans again)
      exact absurd points stops
  | follows told points onward ih =>
    cases second with
    | refused failed => simp [failed] at told
    | ends again stops =>
      cases Except.ok.inj (told.symm.trans again)
      exact absurd points stops
    | follows again _ next =>
      cases Except.ok.inj (told.symm.trans again)
      rw [ih next]

theorem pathTold {last : TreeReply} (path : Path replies param params (.ok last)) :
    ∃ requested, treeAt replies param = .ok requested := by
  cases path with
  | ends told => exact ⟨last, told⟩
  | follows told => exact ⟨_, told⟩

theorem pathFrom {other : String} (path : Path replies param params ending)
    (member : other ∈ params) : ∃ rest, Path replies other rest ending ∧ rest <:+ params := by
  induction path with
  | refused failed =>
    cases List.mem_singleton.mp member
    exact ⟨_, .refused failed, List.suffix_refl _⟩
  | ends told stops =>
    cases List.mem_singleton.mp member
    exact ⟨_, .ends told stops, List.suffix_refl _⟩
  | follows told points onward ih =>
    rcases List.mem_cons.mp member with rfl | later
    · exact ⟨_, .follows told points onward, List.suffix_refl _⟩
    · obtain ⟨rest, there, suffix⟩ := ih later
      exact ⟨rest, there, suffix.trans (List.suffix_cons _ _)⟩

/- From a block that came again the path would go round for ever. -/
theorem pathNodup (path : Path replies param params ending) : params.Nodup := by
  induction path with
  | refused failed => simp
  | ends told stops => simp
  | @follows param reply params ending told points onward ih =>
    refine List.nodup_cons.mpr ⟨fun member => ?_, ih⟩
    obtain ⟨rest, again, suffix⟩ := pathFrom onward member
    have same := pathUnique again (.follows told points onward)
    have shorter := suffix.length_le
    rw [same, List.length_cons] at shorter
    omega

end Paths

theorem isPointerIff {trees : Trees} : trees.isPointer = true ↔ trees.sapling.Points := by
  simp [Trees.isPointer, PoolTree.Points]

def Trees.empty : Trees := ⟨.empty, .empty⟩

def Trees.along (replies : String → Reply) : Trees → List String → Trees
  | trees, [] => trees
  | trees, param :: rest =>
      match treeAt replies param with
      | .error _ => trees
      | .ok reply => (trees.after reply).along replies rest

def firstTold (earlier later : String) : String := if earlier = "" then later else earlier

theorem firstToldAssoc (first second third : String) :
    firstTold (firstTold first second) third = firstTold first (firstTold second third) := by
  unfold firstTold
  split
  · rfl
  · rfl

theorem firstToldEmpty (state : String) : firstTold state "" = state := by
  unfold firstTold
  split
  · rename_i untold
    exact untold.symm
  · rfl

def orchardAlong (replies : String → Reply) : List String → String
  | [] => ""
  | param :: rest =>
      match treeAt replies param with
      | .error _ => orchardAlong replies rest
      | .ok reply => firstTold reply.orchard.finalState (orchardAlong replies rest)

theorem afterOrchard (trees : Trees) (reply : TreeReply) :
    (trees.after reply).orchard.finalState =
      firstTold trees.orchard.finalState reply.orchard.finalState := by
  by_cases untold : trees.orchard.finalState = ""
  · simp [Trees.after, firstTold, untold]
  · simp [Trees.after, firstTold, untold]

theorem alongPath {replies : String → Reply} {param : String} {params : List String}
    {ending : Except NodeError TreeReply} {last : TreeReply}
    (path : Path replies param params ending) (told : ending = .ok last) (trees : Trees) :
    (trees.along replies params).sapling = last.sapling ∧
      (trees.along replies params).orchard.finalState =
        firstTold trees.orchard.finalState (orchardAlong replies params) := by
  induction path generalizing trees with
  | refused failed => contradiction
  | ends shown stops =>
    cases told
    simp only [Trees.along, shown, orchardAlong, firstToldEmpty]
    exact ⟨rfl, afterOrchard trees last⟩
  | @follows param reply params ending shown points onward ih =>
    obtain ⟨sapling, orchard⟩ := ih told (trees.after reply)
    simp only [Trees.along, shown, orchardAlong]
    refine ⟨sapling, ?_⟩
    rw [orchard, afterOrchard, firstToldAssoc]

section Runs

variable {ι ν : Type} {answer : Call → ν → Reply × ν} {replies : String → Reply}
  {params : List String} {ending : Except NodeError TreeReply}

theorem followStops {trees : Trees} (stops : ¬ trees.sapling.Points) (rounds : Nat) :
    (followPointers rounds trees : Job Store ι _) = .done (some (.ok trees)) := by
  unfold followPointers
  rw [if_neg fun pointer => stops (isPointerIff.mp pointer)]

theorem treeParamNamed {id : BlockId} (named : 0 < id.height ∨ id.hash ≠ []) :
    treeParam id = .ok id.param := by
  unfold treeParam BlockId.param
  split
  · rfl
  · rename_i low
    rw [if_pos (by simpa using named.resolve_left low)]

theorem treeAnswerMissing {trees : Trees} (missing : trees.sapling.finalState = "")
    (requested : TreeReply) (store : Store) (node : ν) :
    Job.run answer (treeAnswer (ι := ι) requested trees).run store node =
      ⟨.error (Handler.notFound "node did not return a tree state"), [], store, node⟩ := by
  rw [treeAnswer, missing]
  rfl

theorem treeAnswerFound {trees : Trees} (found : trees.sapling.finalState ≠ "")
    (requested : TreeReply) (store : Store) (node : ν) :
    Job.run answer (treeAnswer (ι := ι) requested trees).run store node =
      let (info, after) := answer Node.infoCall node
      ⟨((Node.readReply ChainInfo.ofJson? info).mapError NodeError.status).map fun info =>
        { network := info.chain, height := requested.height.toNat, hash := requested.hash,
          time := requested.time, saplingTree := trees.sapling.finalState,
          orchardTree := trees.orchard.finalState }, [], store, after⟩ := by
  have there : (!trees.sapling.finalState.isEmpty) = true := by simpa using found
  have checked : Job.run answer (Handler.ensure (ι := ι) (!trees.sapling.finalState.isEmpty)
      (Handler.notFound "node did not return a tree state")).run store node =
        ⟨.ok (), [], store, node⟩ := by
    rw [there]
    rfl
  rw [treeAnswer, Handler.thenRun _ checked]
  have info : Job.run answer (Handler.chainInfo (ι := ι)).run store node =
      ⟨(Node.readReply ChainInfo.ofJson? (answer Node.infoCall node).1).mapError NodeError.status,
        [], store, (answer Node.infoCall node).2⟩ := rfl
  cases told : Node.readReply ChainInfo.ofJson? (answer Node.infoCall node).1 with
  | error error =>
    rw [told] at info
    rw [Handler.failsRun _ info]
    simp only [told]
    rfl
  | ok chain =>
    rw [told] at info
    rw [Handler.thenRun _ info]
    simp only [told]
    rfl

section Fixed

variable (fixed : ∀ param node, (answer (treeCall param) node).1 = replies param)

include fixed

theorem followAsks {trees : Trees} (points : trees.sapling.Points) (rounds : Nat) (store : Store)
    (node : ν) :
    let param := trees.sapling.skipHash
    let after := (answer (treeCall param) node).2
    Job.run answer (followPointers (ι := ι) (rounds + 1) trees) store node =
      match treeAt replies param with
      | .error error => ⟨some (.error error.status), [], store, after⟩
      | .ok reply => Job.run answer (followPointers rounds (trees.after reply)) store after := by
  rw [followPointers, if_pos (isPointerIff.mpr points)]
  simp only [Job.run, fixed, treeAt]
  cases Node.readReply TreeReply.ofJson? (replies trees.sapling.skipHash) with
  | error error => rfl
  | ok reply => rfl

theorem followRun {param : String} (path : Path replies param params ending) {trees : Trees}
    (points : trees.sapling.Points) (start : trees.sapling.skipHash = param) {rounds : Nat}
    (enough : params.length ≤ rounds) (store : Store) (node : ν) :
    Job.run answer (followPointers (ι := ι) rounds trees) store node =
      ⟨some ((ending.mapError NodeError.status).map fun _ => trees.along replies params), [], store,
        Job.called answer (params.map treeCall) node⟩ := by
  induction path generalizing trees rounds node with
  | refused failed =>
    obtain ⟨rounds, rfl⟩ := Nat.exists_eq_add_one.mpr enough
    rw [followAsks fixed points, start, failed]
    rfl
  | @ends param last told stops =>
    obtain ⟨rounds, rfl⟩ := Nat.exists_eq_add_one.mpr enough
    have halted : (followPointers rounds (trees.after last) : Job Store ι _) =
        .done (some (.ok (trees.after last))) := followStops stops rounds
    rw [followAsks fixed points, start, told, Trees.along, told]
    simp only [halted]
    rfl
  | follows told again onward ih =>
    obtain ⟨rounds, rfl⟩ := Nat.exists_eq_add_one.mpr (Nat.lt_of_lt_of_le (Nat.succ_pos _) enough)
    rw [followAsks fixed points, start, told, Trees.along, told]
    exact ih again rfl (Nat.le_of_succ_le_succ enough) _

theorem followRequested {param : String} (path : Path replies param params ending)
    {requested : TreeReply} (told : treeAt replies param = .ok requested) {rounds : Nat}
    (enough : params.length ≤ rounds + 1) (store : Store) (node : ν) :
    Job.run answer (followPointers (ι := ι) rounds (.ofReply requested)) store
        (answer (treeCall param) node).2 =
      ⟨some ((ending.mapError NodeError.status).map fun _ => Trees.along replies .empty params), [],
        store, Job.called answer (params.map treeCall) node⟩ := by
  cases path with
  | refused failed => simp [failed] at told
  | ends again stops =>
    cases Except.ok.inj (told.symm.trans again)
    rw [followStops stops, Trees.along, told]
    rfl
  | follows again points onward =>
    cases Except.ok.inj (told.symm.trans again)
    rw [followRun fixed onward points rfl (Nat.le_of_succ_le_succ enough), Trees.along, told]
    rfl

theorem treeStateRefused {id : BlockId} {param : String} (named : treeParam id = .ok param)
    {error : NodeError} (failed : treeAt replies param = .error error) (rounds : Nat)
    (store : Store) (node : ν) :
    Job.run answer (treeState (ι := ι) rounds id) store node =
      ⟨some (.error error.status), [], store, (answer (treeCall param) node).2⟩ := by
  unfold treeAt at failed
  simp only [treeState, named, Job.run, fixed, failed]

theorem treeStateStops {id : BlockId} {param : String} (named : treeParam id = .ok param)
    {requested : TreeReply} (told : treeAt replies param = .ok requested) {rounds : Nat}
    {store : Store} {node last : ν} {status : Status}
    (followed : Job.run answer (followPointers (ι := ι) rounds (.ofReply requested)) store
      (answer (treeCall param) node).2 = ⟨some (.error status), [], store, last⟩) :
    Job.run answer (treeState (ι := ι) rounds id) store node =
      ⟨some (.error status), [], store, last⟩ := by
  unfold treeAt at told
  simp only [treeState, named, Job.run, fixed, told]
  show Job.run answer (Job.bind (followPointers rounds (.ofReply requested)) _) store _ = _
  rw [Job.runBind, followed]
  rfl

theorem treeStateEnds {id : BlockId} {param : String} (named : treeParam id = .ok param)
    {requested : TreeReply} (told : treeAt replies param = .ok requested) {rounds : Nat}
    {store : Store} {node last final : ν} {trees : Trees} {result : Except Status TreeState}
    (followed : Job.run answer (followPointers (ι := ι) rounds (.ofReply requested)) store
      (answer (treeCall param) node).2 = ⟨some (.ok trees), [], store, last⟩)
    (answered : Job.run answer (treeAnswer (ι := ι) requested trees).run store last =
      ⟨result, [], store, final⟩) :
    Job.run answer (treeState (ι := ι) rounds id) store node =
      ⟨some result, [], store, final⟩ := by
  unfold treeAt at told
  simp only [treeState, named, Job.run, fixed, told]
  show Job.run answer (Job.bind (followPointers rounds (.ofReply requested)) _) store _ = _
  rw [Job.runBind, followed]
  show (let second := Job.run answer (Job.bind (treeAnswer requested trees).run _) store last;
    Job.Outcome.mk second.value ([] ++ second.items) second.store second.node) = _
  rw [Job.runBind, answered]
  rfl

end Fixed

/- What the node is called for, and in which order, is told by the state that it is left in: this is
said of every node, so of one that keeps a list of its calls too. -/
theorem treeFollowed (fixed : ∀ param node, (answer (treeCall param) node).1 = replies param)
    {id : BlockId} (named : 0 < id.height ∨ id.hash ≠ [])
    (path : Path replies id.param params ending) {rounds : Nat}
    (enough : params.length ≤ rounds + 1) (store : Store) (node : ν) :
    let outcome := Job.run answer (treeState (ι := ι) rounds id) store node
    let after := Job.called answer (params.map treeCall) node
    params.Nodup ∧
      (∀ error, ending = .error error →
        outcome = ⟨some (.error error.status), [], store, after⟩) ∧
      (∀ last, ending = .ok last → last.sapling.finalState = "" → outcome =
        ⟨some (.error ⟨.notFound, "node did not return a tree state"⟩), [], store, after⟩) ∧
      ∀ last, ending = .ok last → last.sapling.finalState ≠ "" →
        ∃ requested, treeAt replies id.param = .ok requested ∧
          let (info, final) := answer Node.infoCall after
          outcome = ⟨some (((Node.readReply ChainInfo.ofJson? info).mapError NodeError.status).map
            fun info => {
              network := info.chain
              height := requested.height.toNat
              hash := requested.hash
              time := requested.time
              saplingTree := last.sapling.finalState
              orchardTree := orchardAlong replies params }), [], store, final⟩ := by
  have asked := treeParamNamed named
  refine ⟨pathNodup path, ?_, ?_, ?_⟩
  · rintro error rfl
    cases told : treeAt replies id.param with
    | error first =>
      cases path with
      | refused failed =>
        exact treeStateRefused fixed asked failed rounds store node
      | follows again => simp [told] at again
    | ok requested =>
      exact treeStateStops fixed asked told (followRequested fixed path told enough store node)
  · rintro last rfl missing
    obtain ⟨requested, told⟩ := pathTold path
    have followed := followRequested (ι := ι) fixed path told enough store node
    have nothing : (Trees.empty.along replies params).sapling.finalState = "" := by
      rw [(alongPath path rfl .empty).1]
      exact missing
    exact treeStateEnds fixed asked told followed (treeAnswerMissing nothing requested store _)
  · rintro last rfl found
    obtain ⟨requested, told⟩ := pathTold path
    have followed := followRequested (ι := ι) fixed path told enough store node
    obtain ⟨sapling, orchard⟩ := alongPath path rfl .empty
    have there : (Trees.empty.along replies params).sapling.finalState ≠ "" := by
      rw [sapling]
      exact found
    refine ⟨requested, told, treeStateEnds fixed asked told followed ?_⟩
    rw [treeAnswerFound there, sapling, orchard]
    rfl

end Runs

def relayed (param : String) : Reply :=
  let pool (skipHash finalState : String) : Json :=
    .object [("commitments", .object [("finalState", .text finalState)]),
      ("skipHash", .text skipHash)]
  let told (hash : String) (height time : Nat) (orchard sapling : Json) : Reply :=
    .ok (.object [("hash", .text hash), ("height", .nat height), ("orchard", orchard),
      ("sapling", sapling), ("time", .nat time)])
  match param with
  | "30" => told "0030" 30 9 (pool "" "") (pool "0020" "")
  | "0020" => told "0020" 20 7 (pool "" "bb") (pool "0010" "")
  | "0010" => told "0010" 10 4 (pool "" "cc") (pool "" "aa")
  | _ => .error (.reported (-8) "no such block")

def relaying (call : Call) (log : List Call) : Reply × List Call :=
  let reply : Reply :=
    match call.method, call.params with
    | "z_gettreestate", [.text param] => relayed param
    | _, _ => .ok (.object [("chain", .text "main")])
  (reply, log ++ [call])

theorem relayedTree :
    let store : Store := { now := 0, window := .startingAt 1, mempool := .fresh 2000 }
    Job.run relaying (treeState (ι := Empty) 2 ⟨30, []⟩) store [] =
      ⟨some (.ok ⟨"main", 30, "0030", 9, "aa", "bb"⟩), [], store,
        [treeCall "30", treeCall "0020", treeCall "0010", Node.infoCall]⟩ := by
  have first : treeAt relayed "30" = .ok ⟨"0030", 30, 9, ⟨"0020", ""⟩, ⟨"", ""⟩⟩ := rfl
  have second : treeAt relayed "0020" = .ok ⟨"0020", 20, 7, ⟨"0010", ""⟩, ⟨"", "bb"⟩⟩ := rfl
  have third : treeAt relayed "0010" = .ok ⟨"0010", 10, 4, ⟨"", "aa"⟩, ⟨"", "cc"⟩⟩ := rfl
  have path : Path relayed (BlockId.param ⟨30, []⟩) ["30", "0020", "0010"] (.ok _) :=
    .follows first ⟨rfl, by decide⟩ (.follows second ⟨rfl, by decide⟩
      (.ends third (by simp [PoolTree.Points])))
  have enough : ["30", "0020", "0010"].length ≤ 2 + 1 := Nat.le_refl 3
  have fixed : ∀ param log, (relaying (treeCall param) log).1 = relayed param := fun _ _ => rfl
  intro store
  obtain ⟨_, _, _, found⟩ := treeFollowed (ι := Empty) fixed (.inl (by decide)) path enough store []
  obtain ⟨requested, told, ran⟩ := found _ rfl (by decide)
  cases Except.ok.inj (first.symm.trans told)
  exact ran

end Wallet

end WalletProxy
