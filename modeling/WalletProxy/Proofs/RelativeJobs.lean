import WalletProxy.Sim.Session

/-! Jobs that mind the clock only by how long ago the mempool was refreshed. Such a job does the same
at a later time; and it asks the node no more than it is said to. -/
namespace WalletProxy

namespace Mempool

def later (delay : Nat) (mempool : Mempool) : Mempool :=
  { mempool with refreshedAt := mempool.refreshedAt.map (· + delay) }

theorem laterOpen (mempool : Mempool) (delay now : Nat) :
    (mempool.later delay).isOpen (now + delay) = mempool.isOpen now := by
  unfold isOpen later
  cases mempool.refreshedAt with
  | none => rfl
  | some last => simp only [Option.map_some, Nat.add_sub_add_right]

theorem laterEnter (mempool : Mempool) (delay now : Nat) :
    (mempool.later delay).enter (now + delay) =
      Prod.map id (later delay) (mempool.enter now) := by
  unfold enter
  rw [laterOpen]
  split
  · rfl
  · rfl

end Mempool

def Store.later (delay : Nat) (store : Store) : Store :=
  { store with now := store.now + delay, mempool := store.mempool.later delay }

theorem Store.laterNow (store : Store) (delay : Nat) :
    (store.later delay).now = store.now + delay := rfl

namespace Job

variable {ι α β ν : Type} {asks : Call → Prop} {fine : α → Prop}

/-- Whatever it is told, the job changes the store in the same way at any time, leaves the interval
between refreshes, asks what it may, and ends in a value that is fine. -/
def Relative (asks : Call → Prop) (fine : α → Prop) : Job Store ι α → Prop
  | done value => fine value
  | act update next => ∀ store : Store,
      ((update store).mempool.interval = store.mempool.interval ∧
        ∀ delay, update (store.later delay) = (update store).later delay ∧
          next (store.later delay) = next store) ∧
      Relative asks fine (next store)
  | ask call next => asks call ∧ ∀ reply, Relative asks fine (next reply)
  | emit _ next => Relative asks fine next

theorem relativeBind {job : Job Store ι α} {f : α → Job Store ι β} {last : β → Prop}
    (relative : job.Relative asks fine)
    (onward : ∀ value, fine value → (f value).Relative asks last) :
    (job.bind f).Relative asks last := by
  induction job with
  | done value => exact onward value relative
  | act update next ih =>
    intro store
    obtain ⟨⟨interval, same⟩, rest⟩ := relative store
    refine ⟨⟨interval, fun delay => ⟨(same delay).1, ?_⟩⟩, ih store rest⟩
    show bind (next (store.later delay)) f = bind (next store) f
    rw [(same delay).2]
  | ask call next ih => exact ⟨relative.1, fun reply => ih reply (relative.2 reply)⟩
  | emit item next ih => exact ih relative

theorem relativeLook {view : Store → α}
    (same : ∀ store delay, view (store.later delay) = view store) :
    (look (ι := ι) view).Relative asks fun _ => True := fun store =>
  ⟨⟨rfl, fun delay => ⟨rfl, congrArg done (same store delay)⟩⟩, trivial⟩

theorem relativeChange {update : Store → α × Store}
    (interval : ∀ store, (update store).2.mempool.interval = store.mempool.interval)
    (same : ∀ store delay, update (store.later delay) =
      Prod.map id (Store.later delay) (update store)) :
    (change (ι := ι) update).Relative asks fun _ => True := by
  refine fun store => ⟨⟨interval store, fun delay => ⟨?_, ?_⟩⟩, trivial⟩
  · exact congrArg Prod.snd (same store delay)
  · exact congrArg (fun changed => done changed.1) (same store delay)

section
variable (answer : Call → ν → Reply × ν) {job : Job Store ι α}
  (relative : job.Relative asks fine)
include relative

theorem laterRuns (delay : Nat) (store : Store) (node : ν) :
    run answer job (store.later delay) node =
      let outcome := run answer job store node
      { outcome with store := outcome.store.later delay } := by
  induction job generalizing store node with
  | done value => rfl
  | act update next ih =>
    obtain ⟨⟨_, same⟩, rest⟩ := relative store
    simp only [run, same]
    exact ih store rest (update store) node
  | ask call next ih => exact ih _ (relative.2 _) store _
  | emit item next ih =>
    simp only [run]
    rw [ih relative]

theorem fineValue (store : Store) (node : ν) : fine (run answer job store node).value := by
  induction job generalizing store node with
  | done value => exact relative
  | act update next ih => exact ih store (relative store).2 (update store) node
  | ask call next ih => exact ih _ (relative.2 _) store _
  | emit item next ih => exact ih relative store node

theorem sameInterval (store : Store) (node : ν) :
    (run answer job store node).store.mempool.interval = store.mempool.interval := by
  induction job generalizing store node with
  | done value => rfl
  | act update next ih =>
    obtain ⟨⟨interval, _⟩, rest⟩ := relative store
    exact (ih store rest (update store) node).trans interval
  | ask call next ih => exact ih _ (relative.2 _) store _
  | emit item next ih => exact ih relative store node

theorem sameNode {node : ν} (kept : ∀ call, asks call → (answer call node).2 = node)
    (store : Store) : (run answer job store node).node = node := by
  induction job generalizing store with
  | done value => rfl
  | act update next ih => exact ih store (relative store).2 (update store)
  | ask call next ih =>
    obtain ⟨asked, rest⟩ := relative
    show (run answer (next (answer call node).1) store (answer call node).2).node = node
    rw [kept call asked]
    exact ih _ (rest _) store
  | emit item next ih => exact ih relative store

end

end Job

end WalletProxy
