/-! When a computation that can fail succeeds: each step has to, and the result is the last one's. -/
namespace WalletProxy.Results

variable {ε φ α β : Type}

theorem pureOk {value result : α} :
    (pure value : Except ε α) = .ok result ↔ value = result := by
  constructor
  · intro ok
    cases ok
    rfl
  · intro same
    subst same
    rfl

theorem bindOk {first : Except ε α} {next : α → Except ε β} {result : β} :
    first >>= next = .ok result ↔ ∃ value, first = .ok value ∧ next value = .ok result := by
  cases first with
  | error fault =>
    constructor
    · intro ok
      cases ok
    · intro h
      obtain ⟨_, ok, _⟩ := h
      cases ok
  | ok value =>
    constructor
    · intro ok
      exact ⟨value, rfl, ok⟩
    · intro h
      obtain ⟨_, same, ok⟩ := h
      cases same
      exact ok

theorem bindError {first : Except ε α} {next : α → Except ε β} {fault : ε} :
    first >>= next = .error fault ↔
      first = .error fault ∨ ∃ value, first = .ok value ∧ next value = .error fault := by
  cases first with
  | error own =>
    constructor
    · intro failed
      cases failed
      exact Or.inl rfl
    · intro h
      obtain same | ⟨_, ok, _⟩ := h
      · cases same
        rfl
      · cases ok
  | ok value =>
    constructor
    · intro failed
      exact Or.inr ⟨value, rfl, failed⟩
    · intro h
      obtain failed | ⟨_, same, failed⟩ := h
      · cases failed
      · cases same
        exact failed

theorem mapOk {f : α → β} {first : Except ε α} {result : β} :
    first.map f = .ok result ↔ ∃ value, first = .ok value ∧ f value = result := by
  cases first with
  | error fault =>
    constructor
    · intro ok
      cases ok
    · intro h
      obtain ⟨_, ok, _⟩ := h
      cases ok
  | ok value =>
    constructor
    · intro ok
      cases ok
      exact ⟨value, rfl, rfl⟩
    · intro h
      obtain ⟨_, same, rfl⟩ := h
      cases same
      rfl

theorem mapErrorOk {f : ε → φ} {first : Except ε α} {result : α} :
    first.mapError f = .ok result ↔ first = .ok result := by
  cases first with
  | error fault =>
    constructor
    · intro ok
      cases ok
    · intro ok
      cases ok
  | ok value =>
    constructor
    · intro ok
      cases ok
      rfl
    · intro ok
      cases ok
      rfl

theorem mapMOk {f : α → Except ε β} {items : List α} {results : List β} :
    items.mapM f = .ok results ↔ items.map f = results.map .ok := by
  induction items generalizing results with
  | nil =>
    rw [List.mapM_nil, pureOk, List.map_nil, eq_comm, eq_comm (a := []), List.map_eq_nil_iff]
  | cons item rest ih =>
    rw [List.mapM_cons, bindOk]
    constructor
    · rintro ⟨first, head, ok⟩
      obtain ⟨others, tail, ok⟩ := bindOk.mp ok
      cases ok
      rw [List.map_cons, List.map_cons, head, ih.mp tail]
    · intro same
      obtain ⟨first, others, rfl, head, tail⟩ := List.map_eq_cons_iff.mp same.symm
      exact ⟨first, head.symm, bindOk.mpr ⟨others, ih.mpr tail.symm, rfl⟩⟩

theorem mapMFault {f : α → Except ε β} {items : List α} {fault : ε}
    (failed : items.mapM f = .error fault) :
    ∃ before item after, items = before ++ item :: after ∧
      (∀ earlier ∈ before, ∃ result, f earlier = .ok result) ∧ f item = .error fault := by
  induction items with
  | nil => cases failed
  | cons item rest ih =>
    rw [List.mapM_cons] at failed
    cases own : f item with
    | error first =>
      rw [own] at failed
      cases failed
      exact ⟨[], item, rest, rfl, List.forall_mem_nil _, own⟩
    | ok result =>
      rw [own] at failed
      cases others : rest.mapM f with
      | error later =>
        rw [others] at failed
        cases failed
        obtain ⟨before, bad, after, rfl, good, told⟩ := ih others
        exact ⟨item :: before, bad, after, rfl,
          List.forall_mem_cons.mpr ⟨⟨result, own⟩, good⟩, told⟩
      | ok results =>
        rw [others] at failed
        cases failed

theorem mapMMember {f : α → Except ε β} {items : List α} {results : List β}
    (ok : items.mapM f = .ok results) {result : β} (member : result ∈ results) :
    ∃ item ∈ items, f item = .ok result := by
  have image : Except.ok result ∈ items.map f := by
    rw [mapMOk.mp ok]
    exact List.mem_map_of_mem member
  exact List.mem_map.mp image

end WalletProxy.Results
