import WalletProxy.Job

/-! Jobs at work side by side on one store. Each of them may take its next step at any time: it
changes the store, or puts a question to the node and gets the reply. What a job has gone through
stays on record. -/
namespace WalletProxy

namespace Job

variable {σ ι α β : Type}

inductive Moment (σ ι : Type) where
  | acted (before after : σ)
  | asked (call : Call) (reply : Reply)
  | gave (item : ι)

def advance (node : Call → Reply) (store : σ) : Job σ ι α → Option (Moment σ ι × Job σ ι α × σ)
  | done _ => none
  | act update next => some (.acted store (update store), next store, update store)
  | ask call next => some (.asked call (node call), next (node call), store)
  | emit item next => some (.gave item, next, store)

inductive Goes : Job σ ι α → List (Moment σ ι) → Job σ ι α → Prop where
  | stays (job : Job σ ι α) : Goes job [] job
  | acts {update : σ → σ} {next : σ → Job σ ι α} {moments last} (store : σ)
      (on : Goes (next store) moments last) :
      Goes (act update next) (.acted store (update store) :: moments) last
  | asks {call : Call} {next : Reply → Job σ ι α} {moments last} (reply : Reply)
      (on : Goes (next reply) moments last) :
      Goes (ask call next) (.asked call reply :: moments) last
  | gives {item : ι} {next : Job σ ι α} {moments last} (on : Goes next moments last) :
      Goes (emit item next) (.gave item :: moments) last

theorem goesOn {job last rest : Job σ ι α} {moments : List (Moment σ ι)} {node : Call → Reply}
    {store after : σ} {moment : Moment σ ι} (goes : Goes job moments last)
    (step : last.advance node store = some (moment, rest, after)) :
    Goes job (moments ++ [moment]) rest := by
  induction goes with
  | stays job =>
    cases job with
    | done value => cases step
    | act update next =>
      cases step
      exact .acts store (.stays _)
    | ask call next =>
      cases step
      exact .asks _ (.stays _)
    | emit item next =>
      cases step
      exact .gives (.stays _)
  | acts before on ih => exact .acts before (ih step)
  | asks reply on ih => exact .asks reply (ih step)
  | gives on ih => exact .gives (ih step)

theorem goesNowhere {value : α} {moments : List (Moment σ ι)} {last : Job σ ι α}
    (goes : Goes (done value) moments last) : moments = [] ∧ last = done value := by
  cases goes with
  | stays => exact ⟨rfl, rfl⟩

theorem bindEnds {job : Job σ ι α} {f : α → Job σ ι β} {moments : List (Moment σ ι)} {value : β}
    (goes : Goes (bind job f) moments (done value)) :
    ∃ first second middle, moments = first ++ second ∧ Goes job first (done middle) ∧
      Goes (f middle) second (done value) := by
  induction job generalizing moments with
  | done middle => exact ⟨[], moments, middle, rfl, .stays _, goes⟩
  | act update next ih =>
    cases goes with
    | acts store on =>
      obtain ⟨first, second, middle, rfl, there, onward⟩ := ih store on
      exact ⟨_, second, middle, rfl, .acts store there, onward⟩
  | ask call next ih =>
    cases goes with
    | asks reply on =>
      obtain ⟨first, second, middle, rfl, there, onward⟩ := ih reply on
      exact ⟨_, second, middle, rfl, .asks reply there, onward⟩
  | emit item next ih =>
    cases goes with
    | gives on =>
      obtain ⟨first, second, middle, rfl, there, onward⟩ := ih on
      exact ⟨_, second, middle, rfl, .gives there, onward⟩

def Steps (allowed : Moment σ ι → Prop) : Job σ ι α → Prop
  | done _ => True
  | act update next =>
      ∀ store, allowed (.acted store (update store)) ∧ Steps allowed (next store)
  | ask call next => ∀ reply, allowed (.asked call reply) ∧ Steps allowed (next reply)
  | emit item next => allowed (.gave item) ∧ Steps allowed next

theorem stepsGoes {allowed : Moment σ ι → Prop} {job last : Job σ ι α}
    {moments : List (Moment σ ι)} (steps : job.Steps allowed) (goes : Goes job moments last) :
    ∀ moment ∈ moments, allowed moment := by
  induction goes with
  | stays job => simp
  | acts store on ih => exact List.forall_mem_cons.mpr ⟨(steps store).1, ih (steps store).2⟩
  | asks reply on ih => exact List.forall_mem_cons.mpr ⟨(steps reply).1, ih (steps reply).2⟩
  | gives on ih => exact List.forall_mem_cons.mpr ⟨steps.1, ih steps.2⟩

theorem stepsMono {allowed more : Moment σ ι → Prop} {job : Job σ ι α} (steps : job.Steps allowed)
    (weaker : ∀ moment, allowed moment → more moment) : job.Steps more := by
  induction job with
  | done value => trivial
  | act update next ih =>
    exact fun store => ⟨weaker _ (steps store).1, ih store (steps store).2⟩
  | ask call next ih => exact fun reply => ⟨weaker _ (steps reply).1, ih reply (steps reply).2⟩
  | emit item next ih => exact ⟨weaker _ steps.1, ih steps.2⟩

theorem stepsBind {allowed : Moment σ ι → Prop} {job : Job σ ι α} {f : α → Job σ ι β}
    (steps : job.Steps allowed) (onward : ∀ value, (f value).Steps allowed) :
    (bind job f).Steps allowed := by
  induction job with
  | done value => exact onward value
  | act update next ih => exact fun store => ⟨(steps store).1, ih store (steps store).2⟩
  | ask call next ih => exact fun reply => ⟨(steps reply).1, ih reply (steps reply).2⟩
  | emit item next ih => exact ⟨steps.1, ih steps.2⟩

/-- As long as other work keeps `inv` between its steps and the node is honest, the job keeps `inv`
with every step and ends in a value that is fine. -/
def Keeps (inv : σ → Prop) (honest : (Call → Reply) → Prop) (fine : α → Prop) : Job σ ι α → Prop
  | done value => fine value
  | act update next =>
      ∀ store, inv store → inv (update store) ∧ Keeps inv honest fine (next store)
  | ask call next => ∀ node, honest node → Keeps inv honest fine (next (node call))
  | emit _ next => Keeps inv honest fine next

section
variable {inv : σ → Prop} {honest : (Call → Reply) → Prop} {fine : α → Prop}

theorem keepsBind {job : Job σ ι α} {f : α → Job σ ι β} {last : β → Prop}
    (keeps : job.Keeps inv honest fine)
    (onward : ∀ value, fine value → (f value).Keeps inv honest last) :
    (bind job f).Keeps inv honest last := by
  induction job with
  | done value => exact onward value keeps
  | act update next ih =>
    exact fun store kept => ⟨(keeps store kept).1, ih store (keeps store kept).2⟩
  | ask call next ih => exact fun node fair => ih (node call) (keeps node fair)
  | emit item next ih => exact ih keeps

theorem keepsAdvance {job rest : Job σ ι α} {node : Call → Reply} {store after : σ}
    {moment : Moment σ ι} (keeps : job.Keeps inv honest fine) (kept : inv store)
    (fair : honest node) (step : job.advance node store = some (moment, rest, after)) :
    inv after ∧ rest.Keeps inv honest fine := by
  cases job with
  | done value => cases step
  | act update next =>
    cases step
    exact keeps store kept
  | ask call next =>
    cases step
    exact ⟨kept, keeps node fair⟩
  | emit item next =>
    cases step
    exact ⟨kept, keeps⟩

end

end Job

structure Worker (σ ι α : Type) where
  task : Job σ ι α
  past : List (Job.Moment σ ι)
  rest : Job σ ι α

structure Crew (σ ι α : Type) where
  store : σ
  workers : List (Worker σ ι α)

variable {σ ι α : Type}

structure Worker.Sound (tasks : Job σ ι α → Prop) (inv : σ → Prop)
    (honest : (Call → Reply) → Prop) (worker : Worker σ ι α) : Prop where
  hired : tasks worker.task
  goes : worker.task.Goes worker.past worker.rest
  keeps : worker.rest.Keeps inv honest fun _ => True

namespace Crew

def join (task : Job σ ι α) (crew : Crew σ ι α) : Crew σ ι α :=
  { crew with workers := crew.workers ++ [⟨task, [], task⟩] }

def move (index : Nat) (node : Call → Reply) (crew : Crew σ ι α) : Crew σ ι α :=
  match crew.workers[index]? with
  | none => crew
  | some worker =>
      match worker.rest.advance node crew.store with
      | none => crew
      | some (moment, rest, store) =>
          ⟨store, crew.workers.set index ⟨worker.task, worker.past ++ [moment], rest⟩⟩

structure Sound (tasks : Job σ ι α → Prop) (inv : σ → Prop) (honest : (Call → Reply) → Prop)
    (crew : Crew σ ι α) : Prop where
  kept : inv crew.store
  workers : ∀ worker ∈ crew.workers, worker.Sound tasks inv honest

section
variable {tasks : Job σ ι α → Prop} {inv : σ → Prop} {honest : (Call → Reply) → Prop}
  {crew : Crew σ ι α} (sound : crew.Sound tasks inv honest)
include sound

theorem joinSound {task : Job σ ι α} (hired : tasks task)
    (keeps : task.Keeps inv honest fun _ => True) : (crew.join task).Sound tasks inv honest := by
  refine ⟨sound.kept, fun worker member => ?_⟩
  rcases List.mem_append.mp member with old | new
  · exact sound.workers worker old
  · cases List.mem_singleton.mp new
    exact ⟨hired, .stays task, keeps⟩

theorem moveSound (index : Nat) {node : Call → Reply} (fair : honest node) :
    (crew.move index node).Sound tasks inv honest := by
  unfold move
  split
  · exact sound
  · rename_i worker here
    have before := sound.workers worker (List.mem_of_getElem? here)
    split
    · exact sound
    · rename_i moment rest store step
      obtain ⟨kept, onward⟩ := Job.keepsAdvance before.keeps sound.kept fair step
      refine ⟨kept, fun other member => ?_⟩
      rcases List.mem_or_eq_of_mem_set member with old | rfl
      · exact sound.workers other old
      · exact ⟨before.hired, Job.goesOn before.goes step, onward⟩

end

end Crew

end WalletProxy
