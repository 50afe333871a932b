import WalletProxy.Proofs.Results
import WalletProxy.Wallet.Handler

/-! What the answer to a wallet comes to when nothing comes between its steps: it goes on from each
part that succeeds, and a stream ends with the status of the first item that there is none of. -/
namespace WalletProxy

theorem Node.readReplyOk {α : Type} {read? : Json → Option α} {reply : Reply} {value : α} :
    readReply read? reply = .ok value ↔ ∃ json, reply = .ok json ∧ read? json = some value := by
  unfold readReply
  rw [Results.bindOk]
  refine exists_congr fun json => and_congr_right fun _ => ?_
  cases read? json with
  | none => simp
  | some other => simp

namespace Wallet

namespace Handler

variable {ι α β ν : Type} {answer : Call → ν → Reply × ν} {job : Handler ι α} {store later : Store}
  {node after : ν}

theorem thenRun {value : α} (next : α → Handler ι β)
    (done : Job.run answer job.run store node = ⟨.ok value, [], later, after⟩) :
    Job.run answer (job >>= next).run store node =
      Job.run answer (next value).run later after := by
  show Job.run answer (Job.bind job.run (ExceptT.bindCont next)) store node = _
  rw [Job.runBind, done]
  rfl

theorem failsRun {status : Status} (next : α → Handler ι β)
    (failed : Job.run answer job.run store node = ⟨.error status, [], later, after⟩) :
    Job.run answer (job >>= next).run store node = ⟨.error status, [], later, after⟩ := by
  show Job.run answer (Job.bind job.run (ExceptT.bindCont next)) store node = _
  rw [Job.runBind, failed]
  rfl

theorem bindRunOk (next : α → Handler ι β) {result : β} :
    (Job.run answer (job >>= next).run store node).value = .ok result ↔
      ∃ value, (Job.run answer job.run store node).value = .ok value ∧
        (Job.run answer (next value).run (Job.run answer job.run store node).store
          (Job.run answer job.run store node).node).value = .ok result := by
  have chained : Job.run answer (job >>= next).run store node =
      Job.run answer (Job.bind job.run (ExceptT.bindCont next)) store node := rfl
  rw [chained, Job.runBind]
  obtain ⟨value, items, later, after⟩ := Job.run answer job.run store node
  cases value with
  | error status =>
    constructor
    · intro same
      cases same
    · rintro ⟨_, same, _⟩
      cases same
  | ok value =>
    simp only [Except.ok.injEq, exists_eq_left']
    rfl

theorem askedRun (call : Call) (read? : Json → Option α) :
    Job.run answer (request call read? : Handler ι α).run store node =
      ⟨(Node.readReply read? (answer call node).1).mapError NodeError.status, [], store,
        (answer call node).2⟩ := rfl

theorem ofExceptRun {ε : Type} (fault : ε → Status) (result : Except ε α) :
    Job.run answer (ofExcept fault result : Handler ι α).run store node =
      ⟨result.mapError fault, [], store, node⟩ := by
  cases result with
  | error error => rfl
  | ok value => rfl

theorem requestRun {call : Call} {read? : Json → Option α} {json : Json} {value : α}
    (replied : answer call node = (.ok json, after)) (read : read? json = some value) :
    Job.run answer (request call read? : Handler ι α).run store node =
      ⟨.ok value, [], store, after⟩ := by
  have told : Node.readReply read? (.ok json) = .ok value :=
    Node.readReplyOk.mpr ⟨json, rfl, read⟩
  rw [askedRun, replied, told]
  rfl

end Handler

namespace Stream

variable {ι κ ν : Type} {answer : Call → ν → Reply × ν} {store : Store} {node : ν}

theorem emitAllRun (items : List ι) :
    Job.run answer (emitAll items) store node = ⟨none, items, store, node⟩ := by
  induction items with
  | nil => rfl
  | cons item rest ih =>
    simp only [emitAll, Job.run, ih]

theorem emitEachStops {job : κ → Handler ι ι} {key : κ} {rest : List κ} {status : Status}
    (failed : Job.run answer (job key).run store node = ⟨.error status, [], store, node⟩) :
    Job.run answer (emitEach job (key :: rest)) store node = ⟨some status, [], store, node⟩ := by
  show Job.run answer (Job.bind (job key).run _) store node = _
  rw [Job.runBind, failed]
  rfl

theorem emitEachGoesOn {job : κ → Handler ι ι} {key : κ} {rest : List κ} {item : ι}
    (done : Job.run answer (job key).run store node = ⟨.ok item, [], store, node⟩) :
    Job.run answer (emitEach job (key :: rest)) store node =
      let others := Job.run answer (emitEach job rest) store node
      { others with items := item :: others.items } := by
  show Job.run answer (Job.bind (job key).run _) store node = _
  rw [Job.runBind, done]
  rfl

theorem emitEachRun {job : κ → Handler ι ι} {item : κ → Option ι} {missing : κ → Status}
    {keys : List κ} (told : ∀ key ∈ keys, Job.run answer (job key).run store node =
      ⟨(item key).elim (.error (missing key)) .ok, [], store, node⟩) :
    ∃ items, Job.run answer (emitEach job keys) store node =
        ⟨(keys.find? fun key => (item key).isNone).map missing, items, store, node⟩ ∧
      items.map some = (keys.takeWhile fun key => (item key).isSome).map item := by
  induction keys with
  | nil => exact ⟨[], rfl, rfl⟩
  | cons key rest ih =>
    obtain ⟨first, others⟩ := List.forall_mem_cons.mp told
    cases own : item key with
    | none =>
      rw [own] at first
      refine ⟨[], ?_, by simp [own]⟩
      rw [emitEachStops first, List.find?_cons_of_pos (by simp [own])]
      rfl
    | some sent =>
      rw [own] at first
      obtain ⟨items, ends, shown⟩ := ih others
      refine ⟨sent :: items, ?_, by simp [own, shown]⟩
      rw [emitEachGoesOn first, ends, List.find?_cons_of_neg (by simp [own])]

theorem emittedAt {item : κ → Option ι} {going : κ → Bool} {keys : List κ} {items : List ι}
    (shown : items.map some = (keys.takeWhile going).map item) {index : Nat} {sent : ι}
    (found : items[index]? = some sent) : ∃ key, keys[index]? = some key ∧ item key = some sent := by
  have image : ((keys.takeWhile going).map item)[index]? = some (some sent) := by
    rw [← shown, List.getElem?_map, found]
    rfl
  rw [List.getElem?_map, Option.map_eq_some_iff] at image
  obtain ⟨key, position, own⟩ := image
  obtain ⟨inside, same⟩ := List.getElem?_eq_some_iff.mp position
  refine ⟨key, ?_, own⟩
  rw [← same]
  exact List.prefix_iff_getElem?.mp (List.takeWhile_prefix going) index inside

end Stream

end Wallet

end WalletProxy
