import WalletProxy.Proofs.RefreshSteps
import WalletProxy.Proofs.ShieldedParts
import WalletProxy.Proofs.TextRoundTrip

/-! Refreshes, queries and clears of the mempool at work at the same time, their steps in any order.
Whatever can be seen in a snapshot is what the transactions of the node come to. -/
namespace WalletProxy.Mempool

variable {ι : Type} {txs : String → Transaction}

inductive Request where
  | refresh
  | query (held : List Bytes)
  | clear

def Request.job : Request → Job Store Empty (Except MempoolError (List CompactTx))
  | refresh => do return (← Mempool.refresh).map fun () => []
  | query held => Mempool.query held
  | clear => do
      erase
      return .ok []

theorem requestKeeps (request : Request) : request.job.Keeps (FaithfulStore txs) (Honest txs)
    fun _ => True := by
  cases request with
  | refresh => exact Job.keepsBind refreshKeeps fun _ _ => trivial
  | query held =>
    refine Job.keepsBind refreshKeeps fun result _ => ?_
    cases result with
    | error error => trivial
    | ok _ => exact fun store kept => ⟨kept, trivial⟩
  | clear => exact fun store kept => ⟨emptyFaithful txs [], fun store kept => ⟨kept, trivial⟩⟩

theorem requestAsks {request : Request} {past : List (Job.Moment Store Empty)}
    {rest : Job Store Empty (Except MempoolError (List CompactTx))}
    (goes : request.job.Goes past rest) {id : String} {reply : Reply}
    (asked : .asked (txCall id) reply ∈ past) :
    ∃ before, startedFrom? past = some before ∧ before.entry? id = none := by
  cases request with
  | refresh =>
    refine refreshAsks (fun result => ?_) goes asked
    trivial
  | query held =>
    refine refreshAsks (fun result => ?_) goes asked
    cases result with
    | error error => trivial
    | ok _ => exact fun store => ⟨trivial, trivial⟩
  | clear =>
    have silent : (Request.clear.job).Steps Silent :=
      fun store => ⟨trivial, fun store => ⟨trivial, trivial⟩⟩
    exact False.elim (Job.stepsGoes silent goes _ asked)

theorem requestEnds {request : Request} {past : List (Job.Moment Store Empty)}
    {value : Except MempoolError (List CompactTx)} (goes : request.job.Goes past (.done value)) :
    (∃ shown, value = .ok shown) ∧ (∀ moment ∈ past, Silent moment) ∨
    ∃ first second result, past = first ++ second ∧ refresh.Goes first (.done result) ∧
      (∀ moment ∈ second, Silent moment) ∧
      ((∃ error, value = .error error ∧ result = .error error ∧ second = []) ∨
        (∃ shown, value = .ok shown) ∧ result = .ok ()) := by
  cases request with
  | refresh =>
    obtain ⟨first, second, result, rfl, refreshed, onward⟩ := Job.bindEnds goes
    obtain ⟨rfl, same⟩ := Job.goesNowhere onward
    cases same
    refine Or.inr ⟨first, [], result, rfl, refreshed, nofun, ?_⟩
    cases result with
    | error error => exact Or.inl ⟨error, rfl, rfl, rfl⟩
    | ok _ => exact Or.inr ⟨⟨[], rfl⟩, rfl⟩
  | query held =>
    obtain ⟨first, second, result, rfl, refreshed, onward⟩ := Job.bindEnds goes
    refine Or.inr ⟨first, second, result, rfl, refreshed, ?_⟩
    cases result with
    | error error =>
      obtain ⟨rfl, same⟩ := Job.goesNowhere onward
      cases same
      exact ⟨nofun, Or.inl ⟨error, rfl, rfl, rfl⟩⟩
    | ok _ =>
      cases onward with
      | acts store on =>
        obtain ⟨rfl, same⟩ := Job.goesNowhere on
        cases same
        exact ⟨by simp [Silent], Or.inr ⟨⟨_, rfl⟩, rfl⟩⟩
  | clear =>
    cases goes with
    | acts store on =>
      cases on with
      | acts store on =>
        obtain ⟨rfl, same⟩ := Job.goesNowhere on
        cases same
        exact Or.inl ⟨⟨[], rfl⟩, by simp [Silent]⟩

theorem requestFails {request : Request} {past : List (Job.Moment Store Empty)}
    {error : MempoolError} (goes : request.job.Goes past (.done (.error error))) :
    ∀ moment ∈ past, Untouched moment := by
  rcases requestEnds goes with ⟨⟨shown, ends⟩, _⟩ | ⟨first, second, result, rfl, refreshed, _, ends⟩
  · cases ends
  · rcases ends with ⟨fault, _, rfl, rfl⟩ | ⟨⟨shown, ends⟩, _⟩
    · rw [List.append_nil]
      exact refreshFails refreshed
    · cases ends

theorem replacedLonger {first : List (Job.Moment Store ι)} {ids : List String}
    (replaced : Replaced first ids) (second : List (Job.Moment Store ι)) :
    Replaced (first ++ second) ids := by
  obtain ⟨entries, before, acted, finds⟩ := replaced
  refine ⟨entries, before, List.mem_append_left _ acted, fun id member => ?_⟩
  rcases finds id member with found | ⟨error, asked⟩
  · exact Or.inl found
  · exact Or.inr ⟨error, List.mem_append_left _ asked⟩

theorem requestReplaces {request : Request} {past : List (Job.Moment Store Empty)}
    {shown : List CompactTx} (goes : request.job.Goes past (.done (.ok shown))) {listed : Reply}
    (asked : .asked listCall listed ∈ past) :
    ∃ ids, idsOfReply listed = .ok ids ∧ Replaced past ids := by
  rcases requestEnds goes with ⟨_, silent⟩ | ⟨first, second, result, rfl, refreshed, silent, ends⟩
  · exact False.elim (silent _ asked)
  · rcases ends with ⟨fault, failed, _⟩ | ⟨_, rfl⟩
    · cases failed
    · have early := (List.mem_append.mp asked).resolve_right fun member => silent _ member
      obtain ⟨ids, told, replaced⟩ := refreshReplaces refreshed early
      exact ⟨ids, told, replacedLonger replaced second⟩

abbrev Callers := Crew Store Empty (Except MempoolError (List CompactTx))

inductive Event where
  | join (request : Request)
  | move (index : Nat) (node : Call → Reply)
  | pass (time : Nat)

def Event.Honest (txs : String → Transaction) : Event → Prop
  | .move _ node => Mempool.Honest txs node
  | .join _ | .pass _ => True

def step (callers : Callers) : Event → Callers
  | .join request => callers.join request.job
  | .move index node => callers.move index node
  | .pass time => { callers with store := { callers.store with now := time } }

def run (callers : Callers) (events : List Event) : Callers := events.foldl step callers

def IsRequest (task : Job Store Empty (Except MempoolError (List CompactTx))) : Prop :=
  ∃ request : Request, task = request.job

theorem stepSound {callers : Callers}
    (sound : callers.Sound IsRequest (FaithfulStore txs) (Honest txs)) {event : Event}
    (honest : event.Honest txs) :
    (step callers event).Sound IsRequest (FaithfulStore txs) (Honest txs) := by
  cases event with
  | join request => exact Crew.joinSound sound ⟨request, rfl⟩ (requestKeeps request)
  | move index node => exact Crew.moveSound sound index honest
  | pass time => exact ⟨sound.kept, sound.workers⟩

theorem runSound {callers : Callers}
    (sound : callers.Sound IsRequest (FaithfulStore txs) (Honest txs)) {events : List Event}
    (honest : ∀ event ∈ events, event.Honest txs) :
    (run callers events).Sound IsRequest (FaithfulStore txs) (Honest txs) := by
  induction events generalizing callers with
  | nil => exact sound
  | cons event rest ih =>
    obtain ⟨here, later⟩ := List.forall_mem_cons.mp honest
    exact ih (stepSound sound here) later

theorem everySnapshotFaithful (txs : String → Transaction) (now interval : Nat) (window : Window)
    (events : List Event) (honest : ∀ event ∈ events, event.Honest txs) :
    let callers := run ⟨⟨now, window, fresh interval⟩, []⟩ events
    let snapshot := callers.store.mempool.snapshot
    (∀ id entry, (id, entry) ∈ snapshot.entries → id ∈ snapshot.ids ∧
      let body := (txs id).body
      (body.sapling.spends ≠ [] ∨ body.sapling.outputs ≠ [] ∨ body.orchard.actions ≠ [] →
        entry = some ((txs id).compact 0)) ∧
      (body.sapling.spends = [] ∧ body.sapling.outputs = [] ∧ body.orchard.actions = [] →
        entry = none)) ∧
    ∀ worker ∈ callers.workers,
      (∀ id reply, .asked (txCall id) reply ∈ worker.past →
        ∃ before, startedFrom? worker.past = some before ∧ before.entry? id = none) ∧
      (∀ error, worker.rest = .done (.error error) →
        ∀ before after, .acted before after ∈ worker.past →
          after.mempool.snapshot = before.mempool.snapshot) ∧
      ∀ shown listed, worker.rest = .done (.ok shown) → .asked listCall listed ∈ worker.past →
        ∃ ids, idsOfReply listed = .ok ids ∧ Replaced worker.past ids := by
  intro callers snapshot
  have start : Crew.Sound IsRequest (FaithfulStore txs) (Honest txs)
      (⟨⟨now, window, fresh interval⟩, []⟩ : Callers) :=
    ⟨emptyFaithful txs [], nofun⟩
  have sound : callers.Sound IsRequest (FaithfulStore txs) (Honest txs) := runSound start honest
  refine ⟨fun id entry member => ?_, fun worker member => ?_⟩
  · obtain ⟨listed, rfl⟩ := sound.kept id entry member
    refine ⟨listed, fun shielded => ?_, fun bare => ?_⟩
    · exact if_pos (isShieldedIff.mpr shielded)
    · exact if_neg fun shielded => by simp [isShieldedIff, bare] at shielded
  · obtain ⟨⟨request, same⟩, goes, _⟩ := sound.workers worker member
    rw [same] at goes
    refine ⟨fun id reply asked => requestAsks goes asked, fun error failed before after acted => ?_,
      fun shown listed ended asked => ?_⟩
    · rw [failed] at goes
      exact requestFails goes _ acted
    · rw [ended] at goes
      exact requestReplaces goes asked

def emptyTx : Bytes := [0x04, 0x00, 0x00, 0x80, 0x85, 0x20, 0x2f, 0x89] ++ List.replicate 21 0

def pairNode (call : Call) : Reply :=
  match call.params with
  | .text id :: _ =>
      if id = "aa" then .error (.reported NodeError.unknownKey "gone")
      else .ok (.text (Hex.encode emptyTx))
  | _ => .ok (.list [.text "aa", .text "bb"])

/-- A refresh has got the ids when a clear comes. A query begins anew and asks for the first
transaction; the refresh takes all its steps, and then the query ends. -/
def overlapping : List Event :=
  [.join .refresh, .move 0 pairNode, .move 0 pairNode, .join .clear, .move 1 pairNode,
    .move 1 pairNode, .join (.query []), .move 2 pairNode, .move 2 pairNode, .move 2 pairNode,
    .move 2 pairNode, .move 0 pairNode, .move 0 pairNode, .move 0 pairNode, .move 0 pairNode,
    .move 2 pairNode, .move 2 pairNode, .move 2 pairNode]

theorem overlappingFaithful :
    ∃ tx, Transaction.ofBytes emptyTx = .ok tx ∧
      (∀ event ∈ overlapping, event.Honest fun _ => tx) ∧
      let snapshot := (run ⟨⟨0, .startingAt 0, fresh 2000⟩, []⟩ overlapping).store.mempool.snapshot
      snapshot.ids = ["aa", "bb"] ∧ snapshot.entry? "aa" = none ∧
        snapshot.entry? "bb" = some none := by
  obtain ⟨tx, whole, bare⟩ : ∃ tx, Transaction.ofBytes emptyTx = .ok tx ∧
      tx.body.sapling = .empty ∧ tx.body.orchard = .empty := ⟨_, rfl, rfl, rfl⟩
  have fair : Honest (fun _ => tx) pairNode := by
    intro id
    have reply : pairNode (txCall id) = if id = "aa" then _ else _ := rfl
    rw [reply]
    split
    · exact .refused _
    · exact .told rfl (Hex.decodeEncoded _) whole
  have honest : ∀ event ∈ overlapping, event.Honest fun _ => tx := by
    simp [overlapping, Event.Honest, fair]
  obtain ⟨entries, _⟩ := everySnapshotFaithful _ 0 2000 (.startingAt 0) overlapping honest
  refine ⟨tx, whole, honest, ?_⟩
  intro snapshot
  have seen : snapshot.ids = ["aa", "bb"] ∧ snapshot.entry? "aa" = none ∧
      (snapshot.entry? "bb").isSome := by decide +kernel
  obtain ⟨entry, found⟩ := Option.isSome_iff_exists.mp seen.2.2
  have plain := (entries _ _ (entryStands found)).2.2
    (by simp [bare, SaplingPart.empty, OrchardPart.empty])
  rw [found, plain]
  exact ⟨seen.1, seen.2.1, rfl⟩

end WalletProxy.Mempool
