import WalletProxy.Node.Error
import WalletProxy.Json.Basic

/-! Jobs: work that shares a store with other work and puts questions to a node. What a job does to
the store happens at once; only at a question can other work come between. A job may also hand
out items one by one before it ends. -/
namespace WalletProxy

structure Call where
  method : String
  params : List Json

abbrev Reply := Except NodeError Json

inductive Job (σ ι α : Type) where
  | done (value : α)
  | act (update : σ → σ) (next : σ → Job σ ι α)
  | ask (call : Call) (next : Reply → Job σ ι α)
  | emit (item : ι) (next : Job σ ι α)

namespace Job

variable {σ ι α β ν : Type}

def bind : Job σ ι α → (α → Job σ ι β) → Job σ ι β
  | done value, f => f value
  | act update next, f => act update fun s => bind (next s) f
  | ask call next, f => ask call fun reply => bind (next reply) f
  | emit item next, f => emit item (bind next f)

instance : Monad (Job σ ι) where
  pure := done
  bind := bind

def look (view : σ → α) : Job σ ι α := act id fun s => done (view s)

def change (update : σ → α × σ) : Job σ ι α :=
  act (fun s => (update s).2) fun s => done (update s).1

def call (method : String) (params : List Json) : Job σ ι Reply := ask ⟨method, params⟩ done

def yield (item : ι) : Job σ ι Unit := emit item (done ())

structure Outcome (σ ι ν α : Type) where
  value : α
  items : List ι
  store : σ
  node : ν

/-- Runs a job with nothing between, against a node that answers as its state tells. -/
def run (answer : Call → ν → Reply × ν) : Job σ ι α → σ → ν → Outcome σ ι ν α
  | done value, s, node => ⟨value, [], s, node⟩
  | act update next, s, node => run answer (next s) (update s) node
  | ask call next, s, node =>
      let (reply, node) := answer call node
      run answer (next reply) s node
  | emit item next, s, node =>
      let rest := run answer next s node
      { rest with items := item :: rest.items }

@[simp] theorem bindDone (value : α) (f : α → Job σ ι β) : bind (done value) f = f value := rfl

theorem doneBind (job : Job σ ι α) : bind job done = job := by
  induction job with
  | done value => rfl
  | act update next ih => simp [bind, ih]
  | ask call next ih => simp [bind, ih]
  | emit item next ih => simp [bind, ih]

theorem bindAssoc {γ : Type} (job : Job σ ι α) (f : α → Job σ ι β) (g : β → Job σ ι γ) :
    bind (bind job f) g = bind job fun value => bind (f value) g := by
  induction job with
  | done value => rfl
  | act update next ih => simp [bind, ih]
  | ask call next ih => simp [bind, ih]
  | emit item next ih => simp [bind, ih]

theorem runBind (answer : Call → ν → Reply × ν) (job : Job σ ι α) (f : α → Job σ ι β) (store : σ)
    (node : ν) :
    run answer (bind job f) store node =
      let first := run answer job store node
      let second := run answer (f first.value) first.store first.node
      { second with items := first.items ++ second.items } := by
  induction job generalizing store node with
  | done value => rfl
  | act update next ih => exact ih store (update store) node
  | ask call next ih => exact ih _ store _
  | emit item next ih =>
    simp only [bind, run, ih]
    rfl

instance : LawfulMonad (Job σ ι) := LawfulMonad.mk' (Job σ ι) doneBind (fun _ _ => rfl) bindAssoc

end Job

end WalletProxy
