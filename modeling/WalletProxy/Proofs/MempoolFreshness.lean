import WalletProxy.Proofs.RefreshSteps

/-! How old the snapshot is that a query reads. Queries and clears come one after another, each with
the node as it is by then. A query reads from the latest refresh that was tried since the mempool
was cleared, and that one began within the interval; but the gate closes when a refresh begins, not
when it is done, so a query may also read what was there before a refresh that failed. -/
namespace WalletProxy

namespace Mempool

variable {ι ν : Type}

section
variable (answer : Call → ν → Reply × ν)

theorem collectStays (before : Snapshot) (left : List String)
    (found : List (String × Option CompactTx)) (store : Store) (node : ν) :
    (Job.run answer (collect before left found : Job Store ι _) store node).store = store := by
  induction left generalizing found node with
  | nil => rfl
  | cons id left ih =>
    unfold collect
    cases before.entry? id with
    | some entry => exact ih _ node
    | none =>
      simp only [Job.run]
      cases (answer (txCall id) node).1 with
      | error error => exact ih found _
      | ok json =>
        dsimp only
        cases entryOfJson json with
        | error fault => rfl
        | ok entry => exact ih _ _

theorem rebuildRun (store : Store) (node : ν) :
    let outcome := Job.run answer (rebuild : Job Store ι _) store node
    ∃ snapshot, outcome.store = { store with mempool := { store.mempool with snapshot } } ∧
      (outcome.value = .ok () ∨
        snapshot = store.mempool.snapshot ∧ ∃ error, outcome.value = .error error) := by
  rw [rebuildIs]
  simp only [Job.run]
  cases idsOfReply (answer listCall node).1 with
  | error error => exact ⟨_, rfl, Or.inr ⟨rfl, error, rfl⟩⟩
  | ok ids =>
    simp only [Job.run, Job.runBind, id, collectStays]
    cases (Job.run answer (collect store.mempool.snapshot ids [] : Job Store ι _) store
      (answer listCall node).2).value with
    | error error => exact ⟨_, rfl, Or.inr ⟨rfl, error, rfl⟩⟩
    | ok entries => exact ⟨⟨ids, entries⟩, rfl, Or.inl rfl⟩

theorem refreshOpen {store : Store} (opened : store.mempool.isOpen store.now = true) (node : ν) :
    Job.run answer (refresh : Job Store ι _) store node =
      Job.run answer rebuild
        { store with mempool := { store.mempool with refreshedAt := some store.now } } node := by
  simp only [refreshIs, Job.run, entered, enter, opened, if_true]

theorem refreshClosed {store : Store} (closed : store.mempool.isOpen store.now = false)
    (node : ν) :
    Job.run answer (refresh : Job Store ι _) store node = ⟨.ok (), [], store, node⟩ := by
  simp [refreshIs, Job.run, entered, enter, closed]

def reading (held : List Bytes) :
    Except MempoolError Unit → Job Store ι (Except MempoolError (List CompactTx))
  | .error error => .done (.error error)
  | .ok () => .act id fun store => .done (.ok (store.mempool.snapshot.needed held))

theorem queryIs (held : List Bytes) :
    (query held : Job Store ι _) = Job.bind refresh (reading held) := rfl

def asked (store : Store) (time : Nat) (held : List Bytes) (node : ν) :
    Job.Outcome Store Empty ν (Except MempoolError (List CompactTx)) :=
  Job.run answer (query held) { store with now := time } node

theorem askedClosed {store : Store} {time : Nat} (closed : store.mempool.isOpen time = false)
    (held : List Bytes) (node : ν) : asked answer store time held node =
      ⟨.ok (store.mempool.snapshot.needed held), [], { store with now := time }, node⟩ := by
  rw [asked, queryIs, Job.runBind, refreshClosed answer closed]
  rfl

theorem askedOpen {store : Store} {time : Nat} (opened : store.mempool.isOpen time = true)
    (held : List Bytes) (node : ν) :
    let outcome := asked answer store time held node
    ∃ snapshot, outcome.store =
        { store with now := time, mempool := ⟨store.mempool.interval, snapshot, some time⟩ } ∧
      (outcome.value = .ok (snapshot.needed held) ∨
        snapshot = store.mempool.snapshot ∧ ∃ error, outcome.value = .error error) := by
  obtain ⟨snapshot, left, result⟩ := rebuildRun (ι := Empty) answer
    ⟨time, store.window, { store.mempool with refreshedAt := some time }⟩ node
  rw [asked, queryIs, Job.runBind, refreshOpen answer opened]
  dsimp only
  generalize Job.run answer rebuild _ node = rebuilt at left result ⊢
  rw [left]
  rcases result with done | ⟨rfl, error, failed⟩
  · rw [done]
    exact ⟨snapshot, rfl, Or.inl rfl⟩
  · rw [failed]
    exact ⟨_, rfl, Or.inr ⟨rfl, error, rfl⟩⟩

theorem askedEnds (store : Store) (time : Nat) (held : List Bytes) (node : ν) :
    let outcome := asked answer store time held node
    outcome.value = .ok (outcome.store.mempool.snapshot.needed held) ∨
      outcome.store.mempool.snapshot = store.mempool.snapshot ∧
        ∃ error, outcome.value = .error error := by
  cases open? : store.mempool.isOpen time with
  | false =>
    rw [askedClosed answer open?]
    exact Or.inl rfl
  | true =>
    obtain ⟨snapshot, left, ends⟩ := askedOpen answer open? held node
    dsimp only
    rw [left]
    exact ends

end

inductive Visit (ν : Type) where
  | query (time : Nat) (held : List Bytes) (node : ν)
  | clear (time : Nat)

namespace Visit

def time : Visit ν → Nat
  | query time _ _ => time
  | clear time => time

def isQuery : Visit ν → Bool
  | query _ _ _ => true
  | clear _ => false

end Visit

section
variable (answer : Call → ν → Reply × ν)

def visited (store : Store) : Visit ν → Store
  | .query time held node => (asked answer store time held node).store
  | .clear time => { store with now := time, mempool := store.mempool.clear }

def after (store : Store) (visits : List (Visit ν)) : Store := visits.foldl (visited answer) store

theorem afterAppend (store : Store) (first second : List (Visit ν)) :
    after answer store (first ++ second) = after answer (after answer store first) second :=
  List.foldl_append

theorem afterSnoc (store : Store) (visits : List (Visit ν)) (visit : Visit ν) :
    after answer store (visits ++ [visit]) = visited answer (after answer store visits) visit :=
  afterAppend answer store visits [visit]

def Quiet : Store → List (Visit ν) → Prop
  | _, [] => True
  | store, visit :: rest =>
      visit.isQuery = true ∧ store.mempool.isOpen visit.time = false ∧
        Quiet (visited answer store visit) rest

theorem quietSnoc {store : Store} {visits : List (Visit ν)} {visit : Visit ν}
    (quiet : Quiet answer store visits) (query : visit.isQuery = true)
    (closed : (after answer store visits).mempool.isOpen visit.time = false) :
    Quiet answer store (visits ++ [visit]) := by
  induction visits generalizing store with
  | nil => exact ⟨query, closed, trivial⟩
  | cons first rest ih => exact ⟨quiet.1, quiet.2.1, ih quiet.2.2 closed⟩

structure LatestAttempt (start : Store) (visits before : List (Visit ν)) (begun : Nat)
    (held : List Bytes) (node : ν) (later : List (Visit ν)) : Prop where
  split : visits = before ++ .query begun held node :: later
  opened : (after answer start before).mempool.isOpen begun = true
  quiet : Quiet answer (after answer start (before ++ [.query begun held node])) later

structure Traced (start : Store) (visits before : List (Visit ν)) (begun : Nat)
    (held : List Bytes) (node : ν) (later : List (Visit ν)) : Prop where
  latest : LatestAttempt answer start visits before begun held node later
  gate : (after answer start visits).mempool.refreshedAt = some begun
  left : (after answer start visits).mempool.snapshot =
    (after answer start (before ++ [.query begun held node])).mempool.snapshot

def Gated (start : Store) (visits : List (Visit ν)) : Prop :=
  (after answer start visits).mempool.refreshedAt = none ∨
    ∃ before begun held node later, Traced answer start visits before begun held node later

theorem visitedInterval (store : Store) (visit : Visit ν) :
    (visited answer store visit).mempool.interval = store.mempool.interval := by
  cases visit with
  | clear time => rfl
  | query time held node =>
    cases gate : store.mempool.isOpen time with
    | false => simp only [visited, askedClosed answer gate]
    | true =>
      obtain ⟨snapshot, left, _⟩ := askedOpen answer gate held node
      simp only [visited, left]

theorem afterInterval (store : Store) (visits : List (Visit ν)) :
    (after answer store visits).mempool.interval = store.mempool.interval := by
  induction visits generalizing store with
  | nil => rfl
  | cons visit rest ih => exact (ih _).trans (visitedInterval answer store visit)

theorem closedWithin {mempool : Mempool} {begun time : Nat}
    (gate : mempool.refreshedAt = some begun) (closed : mempool.isOpen time = false) :
    time < begun + mempool.interval := by
  have young : ¬ mempool.interval ≤ time - begun := by simpa [isOpen, gate] using closed
  omega

variable {answer}

theorem tracedOpen {start : Store} {visits : List (Visit ν)} {time : Nat}
    (opened : (after answer start visits).mempool.isOpen time = true) (held : List Bytes)
    (node : ν) :
    Traced answer start (visits ++ [.query time held node]) visits time held node [] := by
  obtain ⟨snapshot, left, _⟩ := askedOpen answer opened held node
  refine ⟨⟨rfl, opened, trivial⟩, ?_, rfl⟩
  simp only [afterSnoc, visited, left]

theorem tracedClosed {start : Store} {visits before later : List (Visit ν)} {begun time : Nat}
    {wanted held : List Bytes} {there node : ν}
    (traced : Traced answer start visits before begun wanted there later)
    (closed : (after answer start visits).mempool.isOpen time = false) :
    Traced answer start (visits ++ [.query time held node]) before begun wanted there
      (later ++ [.query time held node]) := by
  obtain ⟨⟨split, opened, quiet⟩, gate, left⟩ := traced
  have stays : (after answer start (visits ++ [.query time held node])).mempool =
      (after answer start visits).mempool := by
    simp only [afterSnoc, visited, askedClosed answer closed]
  refine ⟨⟨by simp [split], opened, quietSnoc answer quiet rfl ?_⟩, ?_, ?_⟩
  · rw [← afterAppend, List.append_assoc, List.singleton_append, ← split]
    exact closed
  · rw [stays, gate]
  · rw [stays, left]

theorem tracedQuery {start : Store} {visits : List (Visit ν)}
    (gated : Gated answer start visits) (time : Nat) (held : List Bytes) (node : ν) :
    ∃ before begun wanted there later,
      Traced answer start (visits ++ [.query time held node]) before begun wanted there later ∧
        (later = [] ∨ time < begun + start.mempool.interval) := by
  cases open? : (after answer start visits).mempool.isOpen time with
  | true => exact ⟨_, _, _, _, _, tracedOpen open? held node, Or.inl rfl⟩
  | false =>
    rcases gated with never | ⟨before, begun, wanted, there, later, traced⟩
    · simp [isOpen, never] at open?
    · have young := closedWithin traced.gate open?
      rw [afterInterval] at young
      exact ⟨_, _, _, _, _, tracedClosed traced open?, Or.inr young⟩

theorem gatedSnoc {start : Store} {visits : List (Visit ν)} (gated : Gated answer start visits)
    (visit : Visit ν) : Gated answer start (visits ++ [visit]) := by
  cases visit with
  | query time held node =>
    obtain ⟨before, begun, wanted, there, later, traced, _⟩ := tracedQuery gated time held node
    exact Or.inr ⟨before, begun, wanted, there, later, traced⟩
  | clear time =>
    refine Or.inl ?_
    rw [afterSnoc]
    rfl

theorem gatedRun {start : Store} {first : List (Visit ν)} (gated : Gated answer start first)
    (visits : List (Visit ν)) : Gated answer start (first ++ visits) := by
  induction visits generalizing first with
  | nil => simpa using gated
  | cons visit rest ih => simpa using ih (gatedSnoc gated visit)

/-- What a query reads comes from a refresh that succeeded, began within the interval or with this
very call, and has seen no clear since. -/
def ReadsBuilt (answer : Call → ν → Reply × ν) (start : Store) (visits : List (Visit ν))
    (time : Nat) (held : List Bytes) (node : ν) : Prop :=
  ∃ before begun wanted there later,
    visits ++ [.query time held node] = before ++ .query begun wanted there :: later ∧
    (after answer start before).mempool.isOpen begun = true ∧
    (∃ found, (asked answer (after answer start before) begun wanted there).value = .ok found) ∧
    (after answer start (visits ++ [.query time held node])).mempool.snapshot =
      (after answer start (before ++ [.query begun wanted there])).mempool.snapshot ∧
    (∀ visit ∈ later, visit.isQuery = true) ∧
    (later = [] ∨ time < begun + start.mempool.interval)

theorem quietClosed {store : Store} {earlier later : List (Visit ν)} {visit : Visit ν}
    (quiet : Quiet answer store (earlier ++ visit :: later)) :
    (after answer store earlier).mempool.isOpen visit.time = false := by
  induction earlier generalizing store with
  | nil => exact quiet.2.1
  | cons first rest ih => exact ih quiet.2.2

theorem quietQueries {store : Store} {visits : List (Visit ν)} (quiet : Quiet answer store visits) :
    ∀ visit ∈ visits, visit.isQuery = true := by
  induction visits generalizing store with
  | nil => nofun
  | cons first rest ih => exact List.forall_mem_cons.mpr ⟨quiet.1, ih quiet.2.2⟩

theorem gateSince {store : Store} {begun last : Nat} {visits : List (Visit ν)}
    (gate : store.mempool.refreshedAt = some last) (since : begun ≤ last)
    (queries : ∀ visit ∈ visits, visit.isQuery = true)
    (times : ∀ visit ∈ visits, begun ≤ visit.time) :
    ∃ last, (after answer store visits).mempool.refreshedAt = some last ∧ begun ≤ last := by
  induction visits generalizing store last with
  | nil => exact ⟨last, gate, since⟩
  | cons visit rest ih =>
    obtain ⟨query, others⟩ := List.forall_mem_cons.mp queries
    obtain ⟨late, rising⟩ := List.forall_mem_cons.mp times
    cases visit with
    | clear time => cases query
    | query time held node =>
      cases open? : store.mempool.isOpen time with
      | false =>
        refine ih ?_ since others rising
        simpa only [visited, askedClosed answer open?] using gate
      | true =>
        obtain ⟨snapshot, left, _⟩ := askedOpen answer open? held node
        exact ih (congrArg (fun store : Store => store.mempool.refreshedAt) left) late others rising

theorem timesRise {earlier later : List (Visit ν)} {visit : Visit ν}
    (ordered : ((earlier ++ visit :: later).map Visit.time).Pairwise (· ≤ ·)) :
    ∀ other ∈ later, visit.time ≤ other.time := by
  simp only [List.map_append, List.map_cons, List.pairwise_append, List.pairwise_cons,
    List.forall_mem_map] at ordered
  exact ordered.2.1.1

theorem timesBelow {earlier : List (Visit ν)} {visit : Visit ν}
    (ordered : ((earlier ++ [visit]).map Visit.time).Pairwise (· ≤ ·)) :
    ∀ other ∈ earlier ++ [visit], other.time ≤ visit.time := by
  intro other member
  rcases List.mem_append.mp member with old | new
  · obtain ⟨first, second, rfl⟩ := List.append_of_mem old
    rw [List.append_assoc] at ordered
    exact timesRise ordered visit (by simp)
  · exact Nat.le_of_eq (congrArg Visit.time (List.mem_singleton.mp new))

theorem attemptsApart {start : Store} {earlier middle : List (Visit ν)} {first begun : Nat}
    {held : List Bytes} {node : ν}
    (opened : (after answer start earlier).mempool.isOpen first = true)
    (queries : ∀ visit ∈ middle, visit.isQuery = true)
    (times : ∀ visit ∈ middle, first ≤ visit.time)
    (opens : (after answer start (earlier ++ .query first held node :: middle)).mempool.isOpen
      begun = true) (since : first ≤ begun) : first + start.mempool.interval ≤ begun := by
  obtain ⟨last, gate, late⟩ := gateSince (tracedOpen opened held node).gate (Nat.le_refl first)
    queries times
  rw [← afterAppend, List.append_assoc, List.singleton_append] at gate
  have aged : start.mempool.interval ≤ begun - last := by
    simpa [isOpen, gate, afterInterval] using opens
  omega

theorem builtLatest {start : Store} {visits before later : List (Visit ν)} {begun time : Nat}
    {wanted held : List Bytes} {there node : ν}
    (latest : LatestAttempt answer start (visits ++ [Visit.query time held node]) before begun
      wanted there later)
    (ordered : ((visits ++ [Visit.query time held node]).map Visit.time).Pairwise (· ≤ ·))
    (built : ReadsBuilt answer start visits time held node) :
    ∃ found, (asked answer (after answer start before) begun wanted there).value = .ok found := by
  obtain ⟨earlier, first, other, elsewhere, between, split, opened, found, _, queries, near⟩ :=
    built
  obtain ⟨whole, opens, quiet⟩ := latest
  have bound : begun ≤ time := timesBelow ordered (.query begun wanted there) (by simp [whole])
  rcases List.append_eq_append_iff.mp (whole.symm.trans split) with
    ⟨middle, rfl, rest⟩ | ⟨middle, rfl, rest⟩
  · cases middle with
    | nil =>
      cases rest
      simpa using found
    | cons visit middle =>
      cases rest
      have closed := quietClosed quiet
      rw [← afterAppend, List.append_assoc] at closed
      exact nomatch closed.symm.trans opened
  · cases middle with
    | nil =>
      cases rest
      simpa using found
    | cons visit middle =>
      cases rest
      rw [split] at ordered
      have rising := timesRise ordered
      have apart := attemptsApart opened
        (fun visit member => queries visit (List.mem_append_left _ member))
        (fun visit member => rising visit (List.mem_append_left _ member)) opens
        (rising (.query begun wanted there) (by simp))
      have young := near.resolve_left (by simp)
      omega

theorem succeededBuilt {start : Store} {visits before later : List (Visit ν)} {begun time : Nat}
    {wanted held : List Bytes} {there node : ν}
    (traced : Traced answer start (visits ++ [Visit.query time held node]) before begun wanted
      there later)
    (near : later = [] ∨ time < begun + start.mempool.interval)
    (succeeded : ∃ found,
      (asked answer (after answer start before) begun wanted there).value = .ok found) :
    ReadsBuilt answer start visits time held node :=
  ⟨before, begun, wanted, there, later, traced.latest.split, traced.latest.opened, succeeded,
    traced.left, quietQueries traced.latest.quiet, near⟩

theorem readsLatestAttempt (answer : Call → ν → Reply × ν) (now interval : Nat) (window : Window)
    (visits : List (Visit ν)) (time : Nat) (held : List Bytes) (node : ν)
    (ordered : ((visits ++ [Visit.query time held node]).map Visit.time).Pairwise (· ≤ ·)) :
    let start : Store := ⟨now, window, fresh interval⟩
    let read := (after answer start (visits ++ [.query time held node])).mempool.snapshot
    ∀ txs, (asked answer (after answer start visits) time held node).value = .ok txs →
      txs = read.needed held ∧
      ∃ before begun wanted there later,
        LatestAttempt answer start (visits ++ [.query time held node]) before begun wanted there
          later ∧
        begun ≤ time ∧ (later = [] ∨ time < begun + interval) ∧
        let attempt := asked answer (after answer start before) begun wanted there
        read = attempt.store.mempool.snapshot ∧
        (ReadsBuilt answer start visits time held node ↔ ∃ found, attempt.value = .ok found) ∧
        ∀ error, attempt.value = .error error →
          read = (after answer start before).mempool.snapshot := by
  intro start read txs answered
  have gated : Gated answer start visits :=
    gatedRun (show Gated answer start [] from Or.inl rfl) visits
  obtain ⟨before, begun, wanted, there, later, traced, near⟩ := tracedQuery gated time held node
  have bound : begun ≤ time :=
    timesBelow ordered (.query begun wanted there) (by simp [traced.latest.split])
  have left := traced.left
  rw [afterSnoc answer start before] at left
  refine ⟨?_, before, begun, wanted, there, later, traced.latest, bound, near, left,
    ⟨builtLatest traced.latest ordered, succeededBuilt traced near⟩, fun error failed => ?_⟩
  · rcases askedEnds answer (after answer start visits) time held node with reads | ⟨_, _, failed⟩
    · simp only [read, afterSnoc, visited]
      exact Except.ok.inj (answered.symm.trans reads)
    · exact nomatch answered.symm.trans failed
  · rcases askedEnds answer (after answer start before) begun wanted there with reads | ⟨same, _⟩
    · exact nomatch failed.symm.trans reads
    · exact left.trans same

def lister (call : Call) (listed : Reply) : Reply × Reply :=
  (if call.method = listCall.method then listed else .error (.reported NodeError.unknownKey "gone"),
    listed)

def busy : Reply := .error (.reported (-1) "busy")

theorem neededNothing (ids : List String) (held : List Bytes) :
    (⟨ids, []⟩ : Snapshot).needed held = [] := by
  simp [Snapshot.needed, Snapshot.entry?]

def staleVisits : List (Visit Reply) :=
  [.query 0 [] (.ok (.list [.text "aa"])), .query 10 [] busy]

theorem staleRead :
    let start : Store := ⟨0, .startingAt 0, fresh 10⟩
    let all := staleVisits ++ [.query 15 [] busy]
    (all.map Visit.time).Pairwise (· ≤ ·) ∧
      (asked lister (after lister start staleVisits) 15 [] busy).value = .ok [] ∧
      (after lister start all).mempool.snapshot.ids = ["aa"] ∧
      ∃ before begun wanted there later,
        LatestAttempt lister start all before begun wanted there later ∧ begun ≤ 15 ∧
          (later = [] ∨ 15 < begun + 10) := by
  intro start all
  have ordered : (all.map Visit.time).Pairwise (· ≤ ·) := by decide
  have answered : (asked lister (after lister start staleVisits) 15 [] busy).value = .ok [] := by
    rw [askedClosed lister (by rfl)]
    exact congrArg Except.ok (neededNothing ["aa"] [])
  obtain ⟨_, before, begun, wanted, there, later, latest, bound, near, _⟩ :=
    readsLatestAttempt lister 0 10 (.startingAt 0) staleVisits 15 [] busy ordered [] answered
  exact ⟨ordered, answered, by decide +kernel, before, begun, wanted, there, later, latest, bound,
    near⟩

/- The first refresh fails, and with the gate closed the next query answers from what was there
before: nothing, while a transaction waits at the node. -/
theorem answersAfterFailure :
    let start : Store := ⟨0, .startingAt 0, fresh 2000⟩
    let listed : Reply := .ok (.list [.text "aa"])
    (([.query 0 [] busy] ++ [.query 0 [] listed] : List (Visit Reply)).map Visit.time).Pairwise
        (· ≤ ·) ∧
      (asked lister (after lister start [.query 0 [] busy]) 0 [] listed).value = .ok [] ∧
      ¬ ReadsBuilt lister start [.query 0 [] busy] 0 [] listed := by
  intro start listed
  refine ⟨by decide, ?_, ?_⟩
  · rw [askedClosed lister (by rfl)]
    exact congrArg Except.ok (neededNothing [] [])
  intro built
  obtain ⟨before, begun, wanted, there, later, split, opened, ⟨found, succeeded⟩, _⟩ := built
  rcases before with _ | ⟨_, _ | ⟨_, rest⟩⟩
  · cases split
    cases succeeded
  · cases split
    cases opened
  · cases rest with
    | nil => cases split
    | cons _ _ => cases split

end

end Mempool

end WalletProxy
