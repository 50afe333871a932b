import WalletProxy.Proofs.JobCrew
import WalletProxy.Proofs.MempoolFreshness
import WalletProxy.Proofs.TextRoundTrip
import WalletProxy.Proofs.WithholdFilter

/-! A query of the mempool as a wallet sees it: the wallet tells ends of the ids that it holds, in
bytes of any number, and gets all that no such end tells apart from the rest. -/
namespace WalletProxy

namespace Snapshot

theorem shownEnd {part : Bytes} {id : Bytes32} :
    shownId part <+: Bytes.ofText id.display ↔ part <:+ id.val := by
  rw [Bytes32.shownText, shownId, Hex.encodedPrefix, List.reverse_prefix]

/-- Whether a transaction goes unsent by what a wallet tells: some end of its id, and no end of its
id that another id has too. -/
def EndHeld (ids : List Bytes32) (held : List Bytes) (id : Bytes32) : Prop :=
  (∃ part ∈ held, part <:+ id.val) ∧
    ∀ part ∈ held, part <:+ id.val → ∀ other ∈ ids, other ≠ id → ¬ part <:+ other.val

instance (ids : List Bytes32) (held : List Bytes) (id : Bytes32) :
    Decidable (EndHeld ids held id) := by
  unfold EndHeld
  infer_instance

theorem withheldEnd {ids : List Bytes32} (distinct : ids.Nodup) (held : List Bytes) {id : Bytes32}
    (member : id ∈ ids) :
    Withhold.Withheld Bytes.ofText (ids.map Bytes32.display) (held.map shownId) id.display ↔
      EndHeld ids held id := by
  have begins : ∀ (part : Bytes) (other : Bytes32),
      (shownId part).isPrefixOf (Bytes.ofText other.display) = true ↔ part <:+ other.val :=
    fun part other => List.isPrefixOf_iff_prefix.trans shownEnd
  refine and_congr ?_ ?_
  · constructor
    · rintro ⟨start, told, first⟩
      obtain ⟨part, inside, rfl⟩ := List.mem_map.mp told
      exact ⟨part, inside, shownEnd.mp first⟩
    · rintro ⟨part, inside, last⟩
      exact ⟨_, List.mem_map_of_mem inside, shownEnd.mpr last⟩
  · simp only [List.forall_mem_map, shownEnd]
    refine forall₃_congr fun part _ own => ?_
    rw [List.countP_map, Withhold.loneCount distinct member ((begins part id).mpr own)]
    simp only [Function.comp_apply, begins]

theorem neededEnds {snapshot : Snapshot} {ids : List Bytes32} (distinct : ids.Nodup)
    (shown : snapshot.ids = ids.map Bytes32.display) (held : List Bytes) :
    snapshot.needed held =
      ((Withhold.sortBy (Bytes.ofText ∘ Bytes32.display) ids).filter
        fun id => ¬ EndHeld ids held id).filterMap fun id => (snapshot.entry? id.display).join := by
  unfold needed
  rw [shown, Withhold.unheldFilter, Withhold.sortMap, List.filter_map, List.filterMap_map]
  refine congrArg _ (List.filter_congr fun id sorted => ?_)
  have member := (Withhold.sortPerm _ ids).mem_iff.mp sorted
  simp only [Function.comp_apply, withheldEnd distinct held member]

end Snapshot

namespace Mempool

variable {ι : Type}

theorem queryReads {held : List Bytes} {past : List (Job.Moment Store ι)} {items : List CompactTx}
    (goes : (query held).Goes past (.done (.ok items))) :
    ∃ before seen, past = before ++ [.acted seen seen] ∧
      items = seen.mempool.snapshot.needed held := by
  rw [queryIs] at goes
  obtain ⟨first, second, result, rfl, _, onward⟩ := Job.bindEnds goes
  cases result with
  | error error =>
    obtain ⟨_, same⟩ := Job.goesNowhere onward
    cases same
  | ok _ =>
    cases onward with
    | acts seen on =>
      obtain ⟨rfl, same⟩ := Job.goesNowhere on
      cases same
      exact ⟨first, seen, rfl, rfl⟩

theorem querySends (snapshot : Snapshot) (ids : List Bytes32) (distinct : ids.Nodup)
    (shown : snapshot.ids = ids.map Bytes32.display) (held : List Bytes) :
    ∃ sorted : List Bytes32, sorted.Perm ids ∧
      (sorted.Pairwise fun x y => Bytes.ofText x.display < Bytes.ofText y.display) ∧
      let sent := (sorted.filter fun id => ¬ Snapshot.EndHeld ids held id).filterMap fun id =>
        (snapshot.entry? id.display).join
      (∀ (past : List (Job.Moment Store ι)) items,
        (query held).Goes past (.done (.ok items)) →
          ∃ before seen, past = before ++ [.acted seen seen] ∧
            (seen.mempool.snapshot = snapshot → items = sent)) ∧
      ∀ (ν : Type) (answer : Call → ν → Reply × ν) (store : Store) (node : ν),
        store.mempool.snapshot = snapshot → store.mempool.isOpen store.now = false →
          Job.run answer (query held : Job Store ι _) store node = ⟨.ok sent, [], store, node⟩ := by
  have needed := Snapshot.neededEnds distinct shown held
  refine ⟨Withhold.sortBy (Bytes.ofText ∘ Bytes32.display) ids, Withhold.sortPerm _ ids,
    Withhold.sortStrict (fun _ _ => Bytes32.shownTextInj) distinct, ?_, ?_⟩
  · intro past items goes
    obtain ⟨before, seen, last, rfl⟩ := queryReads goes
    refine ⟨before, seen, last, fun same => ?_⟩
    rw [same]
    exact needed
  · intro ν answer store node same closed
    rw [queryIs, Job.runBind, refreshClosed answer closed, ← needed, ← same]
    rfl

def idEnding (first second : UInt8) : Bytes32 := ⟨List.replicate 30 0 ++ [first, second], rfl⟩

/-- The wallet tells an end of one id only, and an end that two others share. One of these is sent;
the other has got no entry, but makes the end ambiguous. -/
theorem sharedEndSent :
    let ids := [idEnding 1 8, idEnding 0 7, idEnding 2 8]
    let carried (id : Bytes32) : CompactTx := ⟨0, id.val, 0, [⟨id.val⟩], [], []⟩
    let snapshot : Snapshot := ⟨ids.map Bytes32.display,
      [idEnding 0 7, idEnding 1 8].map fun id => (id.display, some (carried id))⟩
    let store : Store := ⟨0, .startingAt 0, ⟨1, snapshot, some 0⟩⟩
    ids.Nodup ∧ ∀ (answer : Call → Unit → Reply × Unit) (node : Unit),
      Job.run answer (query [[7], [8]] : Job Store Empty _) store node =
        ⟨.ok [carried (idEnding 1 8)], [], store, node⟩ := by
  intro ids carried snapshot store
  have distinct : ids.Nodup := by decide
  refine ⟨distinct, fun answer node => ?_⟩
  obtain ⟨sorted, same, _, _, runs⟩ := querySends (ι := Empty) snapshot ids distinct rfl [[7], [8]]
  have sent : (ids.filter fun id => ¬ Snapshot.EndHeld ids [[7], [8]] id).filterMap
      (fun id => (snapshot.entry? id.display).join) = [carried (idEnding 1 8)] := by
    decide +kernel
  have one := ((same.filter fun id => ¬ Snapshot.EndHeld ids [[7], [8]] id).filterMap
    fun id => (snapshot.entry? id.display).join)
  rw [sent, List.perm_singleton] at one
  rw [runs Unit answer store node rfl rfl, one]

end Mempool

end WalletProxy
