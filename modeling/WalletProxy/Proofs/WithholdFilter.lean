import WalletProxy.Mempool.Withhold

/-! The one pass over ids and held beginnings keeps and drops the items that a plain count of
beginnings does. -/
namespace WalletProxy.Withhold

variable {α : Type} {key : α → Bytes}

theorem upToLe {a b : Bytes} : upTo a b = true ↔ a ≤ b := by
  induction a generalizing b with
  | nil => simp [upTo]
  | cons x as ih =>
    cases b with
    | nil => simp [upTo]
    | cons y bs => simp [upTo, List.cons_le_cons_iff, ih]

theorem precedesLe {a b c : Bytes} (before : precedes a b = true) (order : b ≤ c) :
    precedes a c = true := by
  induction a generalizing b c with
  | nil => simp [precedes] at before
  | cons x as ih =>
    cases b with
    | nil => simp [precedes] at before
    | cons y bs =>
      cases c with
      | nil => simp at order
      | cons z cs =>
        simp only [precedes, Bool.or_eq_true, decide_eq_true_eq, Bool.and_eq_true] at before ⊢
        rw [List.cons_le_cons_iff] at order
        rcases before with less | ⟨rfl, before⟩
        · rcases order with more | ⟨rfl, _⟩
          · exact Or.inl (UInt8.lt_trans less more)
          · exact Or.inl less
        · rcases order with more | ⟨rfl, order⟩
          · exact Or.inl more
          · exact Or.inr ⟨rfl, ih before order⟩

theorem precedesApart {a b : Bytes} (before : precedes a b = true) : ¬ a <+: b ∧ ¬ b <+: a := by
  induction a generalizing b with
  | nil => simp [precedes] at before
  | cons x as ih =>
    cases b with
    | nil => simp [precedes] at before
    | cons y bs =>
      simp only [precedes, Bool.or_eq_true, decide_eq_true_eq, Bool.and_eq_true] at before
      rcases before with less | ⟨rfl, before⟩
      · have apart : x ≠ y := UInt8.ne_of_lt less
        simp [List.cons_prefix_cons, apart, apart.symm]
      · simpa [List.cons_prefix_cons] using ih before

theorem leCases {a b : Bytes} (order : a ≤ b) : a <+: b ∨ precedes a b = true := by
  induction a generalizing b with
  | nil => exact Or.inl List.nil_prefix
  | cons x as ih =>
    cases b with
    | nil => simp at order
    | cons y bs =>
      simp only [precedes, Bool.or_eq_true, decide_eq_true_eq, Bool.and_eq_true]
      rcases List.cons_le_cons_iff.mp order with less | ⟨rfl, below⟩
      · exact Or.inr (Or.inl less)
      · rcases ih below with start | before
        · exact Or.inl (List.cons_prefix_cons.mpr ⟨rfl, start⟩)
        · exact Or.inr (Or.inr ⟨rfl, before⟩)

theorem shorterFirst {a b id : Bytes} (order : a ≤ b) (first : a <+: id) (second : b <+: id) :
    a <+: b := by
  rcases leCases order with start | before
  · exact start
  · obtain ⟨notFirst, notSecond⟩ := precedesApart before
    rcases List.prefix_or_prefix_of_prefix first second with start | start
    · exact start
    · exact absurd start notSecond

theorem sortPerm (key : α → Bytes) (items : List α) : (sortBy key items).Perm items := List.mergeSort_perm _ _

theorem sortOrdered (key : α → Bytes) (items : List α) :
    (sortBy key items).Pairwise fun x y => key x ≤ key y := by
  have trans : ∀ x y z : α, upTo (key x) (key y) → upTo (key y) (key z) →
      upTo (key x) (key z) := by
    intro x y z first second
    exact upToLe.mpr (List.le_trans (upToLe.mp first) (upToLe.mp second))
  have total : ∀ x y : α, upTo (key x) (key y) || upTo (key y) (key x) := by
    intro x y
    rw [Bool.or_eq_true, upToLe, upToLe]
    exact List.le_total (key x) (key y)
  exact (List.pairwise_mergeSort trans total items).imp upToLe.mp

theorem sortMap {β : Type} (key : α → Bytes) (name : β → α) (items : List β) :
    sortBy key (items.map name) = (sortBy (key ∘ name) items).map name := by
  unfold sortBy
  rw [List.map_mergeSort]
  exact fun x _ y _ => rfl

theorem sortStrict {key : α → Bytes} (apart : ∀ x y, key x = key y → x = y) {items : List α}
    (distinct : items.Nodup) : (sortBy key items).Pairwise fun x y => key x < key y := by
  have differ : (sortBy key items).Nodup := (sortPerm key items).nodup_iff.mpr distinct
  refine ((sortOrdered key items).and differ).imp fun h => ?_
  obtain ⟨order, other⟩ := h
  exact Std.lt_of_le_of_ne order fun same => other (apart _ _ same)

theorem skipToSublist (id : Bytes) (held : List (Bytes × Nat)) :
    (skipTo id held).Sublist held := by
  induction held with
  | nil => exact List.Sublist.refl _
  | cons entry rest ih =>
    unfold skipTo
    split
    · exact ih.cons entry
    · exact List.Sublist.refl _

theorem skipToFind {id later : Bytes} (order : id ≤ later) (held : List (Bytes × Nat)) :
    (skipTo id held).find? (fun entry => entry.1.isPrefixOf later) =
      held.find? fun entry => entry.1.isPrefixOf later := by
  induction held with
  | nil => rfl
  | cons entry rest ih =>
    unfold skipTo
    split
    · rename_i before
      obtain ⟨apart, _⟩ := precedesApart (precedesLe before order)
      rw [List.find?_cons_of_neg (by simpa using apart)]
      exact ih
    · rfl

theorem skipToStops {id : Bytes} {held rest : List (Bytes × Nat)} {entry : Bytes × Nat}
    (skipped : skipTo id held = entry :: rest) : ¬ precedes entry.1 id = true := by
  induction held with
  | nil => simp [skipTo] at skipped
  | cons first others ih =>
    unfold skipTo at skipped
    split at skipped
    · exact ih skipped
    · rename_i stays
      cases skipped
      exact stays

theorem headDecides {id : Bytes} {entry : Bytes × Nat} {rest : List (Bytes × Nat)}
    (sorted : (entry :: rest).Pairwise fun x y => x.1 ≤ y.1)
    (stays : ¬ precedes entry.1 id = true) :
    (entry :: rest).find? (fun entry => entry.1.isPrefixOf id) =
      if entry.1.isPrefixOf id then some entry else none := by
  obtain ⟨below, _⟩ := List.pairwise_cons.mp sorted
  split
  · rename_i start
    exact List.find?_cons_of_pos start
  · rename_i other
    rw [List.isPrefixOf_iff_prefix] at other
    rw [List.find?_eq_none]
    intro later member begins
    rw [List.isPrefixOf_iff_prefix] at begins
    rcases List.mem_cons.mp member with rfl | inside
    · exact other begins
    · rcases leCases (List.le_trans (below later inside) begins.le) with start | before
      · exact other start
      · exact stays before

theorem matchedFirst {items : List α} {held : List (Bytes × Nat)}
    (ordered : items.Pairwise fun x y => key x ≤ key y)
    (sorted : held.Pairwise fun x y => x.1 ≤ y.1) :
    matched key held items = items.map fun item =>
      (item, (held.find? fun entry => entry.1.isPrefixOf (key item)).map (·.2)) := by
  induction items generalizing held with
  | nil => rfl
  | cons item rest ih =>
    obtain ⟨below, ordered⟩ := List.pairwise_cons.mp ordered
    have left : (skipTo (key item) held).Pairwise fun x y => x.1 ≤ y.1 :=
      sorted.sublist (skipToSublist (key item) held)
    -- The cursor has moved on, but what it has passed begins none of the later items.
    have others : matched key (skipTo (key item) held) rest = rest.map fun later =>
        (later, (held.find? fun entry => entry.1.isPrefixOf (key later)).map (·.2)) := by
      rw [ih ordered left]
      apply List.map_congr_left
      intro later member
      rw [skipToFind (below later member)]
    rw [matched, List.map_cons, others, ← skipToFind (List.le_refl (key item))]
    cases skipped : skipTo (key item) held with
    | nil => rfl
    | cons entry rest =>
      rw [skipped] at left
      simp only [headDecides left (skipToStops skipped)]
      split <;> rfl

/- The entry of an item is the shortest of the held beginnings that the item has, and it is the entry
of every item that has this beginning. -/
theorem firstShortest {starts : List Bytes} (sorted : starts.Pairwise fun x y => x ≤ y)
    {id : Bytes} {number : Nat} (found : starts.findIdx? (·.isPrefixOf id) = some number) :
    ∃ start ∈ starts, start <+: id ∧ (∀ other ∈ starts, other <+: id → start <+: other) ∧
      ∀ later, starts.findIdx? (·.isPrefixOf later) = some number ↔ start <+: later := by
  obtain ⟨inside, begins, others⟩ := List.findIdx?_eq_some_iff_getElem.mp found
  simp only [List.isPrefixOf_iff_prefix] at begins others
  rw [List.pairwise_iff_getElem] at sorted
  refine ⟨starts[number], List.getElem_mem inside, begins, ?_, ?_⟩
  · intro other member start
    obtain ⟨index, within, rfl⟩ := List.getElem_of_mem member
    rcases Nat.lt_trichotomy index number with before | rfl | after
    · exact absurd start (others index before)
    · exact List.prefix_refl _
    · exact shorterFirst (sorted number index inside within after) begins start
  · intro later
    constructor
    · intro same
      obtain ⟨_, start, _⟩ := List.findIdx?_eq_some_iff_getElem.mp same
      exact List.isPrefixOf_iff_prefix.mp start
    · intro start
      rw [List.findIdx?_eq_some_iff_getElem]
      refine ⟨inside, List.isPrefixOf_iff_prefix.mpr start, ?_⟩
      intro index before earlier
      rw [List.isPrefixOf_iff_prefix] at earlier
      have shorter := shorterFirst (sorted index number _ inside before) earlier start
      exact others index before (shorter.trans begins)

/-- Whether an item goes unsent: some held beginning is its own, and each such is of no other. -/
def Withheld (key : α → Bytes) (items : List α) (held : List Bytes) (item : α) : Prop :=
  (∃ start ∈ held, start <+: key item) ∧
    ∀ start ∈ held, start <+: key item →
      items.countP (fun other => start.isPrefixOf (key other)) = 1

instance (items : List α) (held : List Bytes) (item : α) :
    Decidable (Withheld key items held item) := by
  unfold Withheld
  infer_instance

theorem loneCount [DecidableEq α] {items : List α} (distinct : items.Nodup) {item : α}
    (member : item ∈ items) {holds : α → Bool} (own : holds item = true) :
    items.countP holds = 1 ↔ ∀ other ∈ items, other ≠ item → ¬ holds other = true := by
  have count : items.countP holds = (items.erase item).countP holds + 1 := by
    rw [(List.perm_cons_erase member).countP_eq, List.countP_cons_of_pos own]
  rw [count, Nat.add_eq_right, List.countP_eq_zero]
  simp only [distinct.mem_erase_iff, and_imp]
  exact ⟨fun none other inside apart => none other apart inside,
    fun none other apart inside => none other inside apart⟩

theorem withheldFirst {starts : List Bytes} (sorted : starts.Pairwise fun x y => x ≤ y)
    {items : List α} {item : α} (member : item ∈ items) :
    Withheld key items starts item ↔
      ∃ number, starts.findIdx? (·.isPrefixOf (key item)) = some number ∧
        items.countP (fun other =>
          starts.findIdx? (·.isPrefixOf (key other)) == some number) = 1 := by
  constructor
  · intro h
    obtain ⟨⟨own, held, begins⟩, lone⟩ := h
    cases found : starts.findIdx? (·.isPrefixOf (key item)) with
    | none =>
      have other := List.findIdx?_eq_none_iff.mp found own held
      rw [List.isPrefixOf_iff_prefix.mpr begins] at other
      contradiction
    | some number =>
      obtain ⟨start, inside, first, _, same⟩ := firstShortest sorted found
      refine ⟨number, rfl, ?_⟩
      rw [← lone start inside first]
      apply List.countP_congr
      intro other _
      simp [same]
  · intro h
    obtain ⟨number, found, lone⟩ := h
    obtain ⟨start, inside, first, shortest, same⟩ := firstShortest sorted found
    refine ⟨⟨start, inside, first⟩, ?_⟩
    intro other held begins
    have some : 0 < items.countP fun later => other.isPrefixOf (key later) :=
      List.countP_pos_iff.mpr ⟨item, member, List.isPrefixOf_iff_prefix.mpr begins⟩
    -- The items of a longer beginning are among those of the shortest one.
    have fewer : items.countP (fun later => other.isPrefixOf (key later)) ≤
        items.countP fun later =>
          starts.findIdx? (·.isPrefixOf (key later)) == .some number := by
      apply List.countP_mono_left
      intro later _ start
      rw [beq_iff_eq, same]
      exact (shortest other held begins).trans (List.isPrefixOf_iff_prefix.mp start)
    omega

theorem withheldPerm {items others : List α} {held starts : List Bytes}
    (sameItems : items.Perm others) (sameHeld : held.Perm starts) (item : α) :
    Withheld key items held item ↔ Withheld key others starts item := by
  simp only [Withheld, sameItems.countP_eq, sameHeld.mem_iff]

theorem numberedOrdered {starts : List Bytes} (sorted : starts.Pairwise fun x y => x ≤ y) :
    starts.zipIdx.Pairwise fun x y => x.1 ≤ y.1 := by
  apply List.pairwise_map.mp
  rwa [List.zipIdx_map_fst]

theorem numberFirst (starts : List Bytes) (id : Bytes) :
    (starts.zipIdx.find? fun entry => entry.1.isPrefixOf id).map (·.2) =
      starts.findIdx? (·.isPrefixOf id) :=
  (List.findIdx?_eq_fst_find?_zipIdx (p := fun start : Bytes => start.isPrefixOf id)).symm

theorem keptMarked {β : Type} (mark : α → β) (keep : α × β → Bool) (items : List α) :
    ((items.map fun item => (item, mark item)).filter keep).map (·.1) =
      items.filter fun item => keep (item, mark item) := by
  induction items with
  | nil => rfl
  | cons item rest ih =>
    rw [List.map_cons, List.filter_cons, List.filter_cons]
    split
    · rw [List.map_cons, ih]
    · exact ih

theorem unheldFilter (key : α → Bytes) (items : List α) (held : List Bytes) :
    unheld key items held =
      (sortBy key items).filter fun item => ¬ Withheld key items held item := by
  have sorted : (sortBy id held).Pairwise fun x y => x ≤ y := sortOrdered id held
  have found := matchedFirst (sortOrdered key items) (numberedOrdered sorted)
  simp only [numberFirst] at found
  simp only [unheld, found, keptMarked, List.map_map, List.count_eq_countP, List.countP_map]
  apply List.filter_congr
  intro item member
  have moved : Withheld key items held item ↔
      Withheld key (sortBy key items) (sortBy id held) item :=
    withheldPerm (sortPerm key items).symm (sortPerm id held).symm item
  simp only [moved, withheldFirst sorted member, Function.comp_def]
  cases (sortBy id held).findIdx? (·.isPrefixOf (key item)) with
  | none => simp
  | some number => simp

theorem unheldNaive (items held : List String) :
    ∃ sorted : List String, sorted.Perm items ∧
      (sorted.Pairwise fun x y => Bytes.ofText x ≤ Bytes.ofText y) ∧
      unheldTexts items held = sorted.filter fun item =>
        ¬ Withheld Bytes.ofText items (held.map Bytes.ofText) item :=
  ⟨sortBy Bytes.ofText items, sortPerm Bytes.ofText items, sortOrdered Bytes.ofText items,
    unheldFilter Bytes.ofText items (held.map Bytes.ofText)⟩

end WalletProxy.Withhold
