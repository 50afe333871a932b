import Mathlib.Data.List.Forall2
import WalletProxy.Proofs.HandlerRun
import WalletProxy.Proofs.TextRoundTrip
import WalletProxy.Wallet.Addresses

/-! The unspent outputs of addresses. Of what the node tells the ones that are high enough count, and
of those the first ones up to the limit; what else is told is not read, so that it may as well be
unreadable. Sent one after another or all at once, it is the same outputs or the same fault. -/
namespace WalletProxy

structure UtxoReply.Bounded (entry : UtxoReply) : Prop where
  index : Int32.minValue.toInt ≤ entry.outputIndex ∧ entry.outputIndex ≤ Int32.maxValue.toInt
  value : (entry.satoshis : Int) ≤ Int64.maxValue.toInt
  height : 0 ≤ entry.height

def UtxoReply.Readable (entry : UtxoReply) : Prop := Hex.Valid entry.txid ∧ Hex.Valid entry.script

/-- The fault that an output cannot be sent for; the id of its transaction is read first. -/
inductive UtxoReply.Faulty (entry : UtxoReply) : Hex.Error → Prop where
  | txid {fault : Hex.Error} (bad : Hex.decode entry.txid = .error fault) : Faulty entry fault
  | script {fault : Hex.Error} (good : Hex.Valid entry.txid)
      (bad : Hex.decode entry.script = .error fault) : Faulty entry fault

structure UtxoReply.SentAs (entry : UtxoReply) (utxo : Wallet.Utxo) : Prop where
  address : utxo.address = entry.address
  txid : Hex.decode entry.txid = .ok utxo.txid.reverse
  script : Hex.decode entry.script = .ok utxo.script
  index : utxo.index.toInt = entry.outputIndex
  value : utxo.value.toInt = entry.satoshis
  height : (utxo.height : Int) = entry.height

namespace Wallet

theorem utxoReadable {entry : UtxoReply} :
    (∃ utxo, utxoOf entry = .ok utxo) ↔ entry.Readable := by
  unfold UtxoReply.Readable
  rw [← Hex.decodesIff, ← Hex.decodesIff]
  constructor
  · rintro ⟨utxo, made⟩
    obtain ⟨txid, first, made⟩ := Results.bindOk.mp made
    obtain ⟨script, second, _⟩ := Results.bindOk.mp made
    exact ⟨⟨txid, first⟩, ⟨script, second⟩⟩
  · rintro ⟨⟨txid, first⟩, ⟨script, second⟩⟩
    exact ⟨_, Results.bindOk.mpr ⟨txid, first, Results.bindOk.mpr ⟨script, second, rfl⟩⟩⟩

theorem utxoSentAs {entry : UtxoReply} {utxo : Utxo} (bounded : entry.Bounded)
    (made : utxoOf entry = .ok utxo) : entry.SentAs utxo := by
  obtain ⟨txid, first, made⟩ := Results.bindOk.mp made
  obtain ⟨script, second, made⟩ := Results.bindOk.mp made
  cases made
  have index : (Int32.ofInt entry.outputIndex).toInt = entry.outputIndex :=
    Int32.toInt_ofInt_of_le bounded.index.1 (Int.lt_add_one_of_le bounded.index.2)
  have fits : entry.satoshis < 2 ^ 63 := by
    have greatest : Int64.maxValue.toInt = 2 ^ 63 - 1 := rfl
    have most := bounded.value
    omega
  have value : (Int64.ofNat entry.satoshis).toInt = entry.satoshis := Int64.toInt_ofNat_of_lt fits
  exact ⟨rfl, by rwa [List.reverse_reverse], second, index, value,
    Int.toNat_of_nonneg bounded.height⟩

theorem utxoFaulty {entry : UtxoReply} {fault : Hex.Error} (failed : utxoOf entry = .error fault) :
    entry.Faulty fault := by
  unfold utxoOf at failed
  cases first : Hex.decode entry.txid with
  | error other =>
    rw [first] at failed
    cases failed
    exact .txid first
  | ok txid =>
    rw [first] at failed
    cases second : Hex.decode entry.script with
    | error other =>
      rw [second] at failed
      cases failed
      exact .script (Hex.decodesIff.mp ⟨txid, first⟩) second
    | ok script =>
      rw [second] at failed
      cases failed

theorem utxosSentAs {entries : List UtxoReply} {utxos : List Utxo}
    (bounded : ∀ entry ∈ entries, entry.Bounded) (made : entries.map utxoOf = utxos.map .ok) :
    List.Forall₂ UtxoReply.SentAs entries utxos := by
  induction entries generalizing utxos with
  | nil =>
    cases List.map_eq_nil_iff.mp made.symm
    exact .nil
  | cons entry rest ih =>
    obtain ⟨own, others⟩ := List.forall_mem_cons.mp bounded
    obtain ⟨utxo, later, rfl, first, tail⟩ := List.map_eq_cons_iff.mp made.symm
    exact .cons (utxoSentAs own first.symm) (ih others tail.symm)

section Selection

variable {filter : UtxoFilter} {entries : List UtxoReply}

def highEnough (filter : UtxoFilter) (entries : List UtxoReply) : List UtxoReply :=
  entries.filter fun entry => (filter.startHeight : Int) ≤ entry.height

theorem highFiltered (bounded : ∀ entry ∈ entries, entry.Bounded) :
    (entries.filter fun entry => filter.startHeight ≤ entry.height.toNat) =
      highEnough filter entries := by
  refine List.filter_congr fun entry member => decide_eq_decide.mpr ?_
  have natural := (bounded entry member).height
  omega

theorem selectedFirst (bounded : ∀ entry ∈ entries, entry.Bounded) :
    selected filter entries <+: highEnough filter entries := by
  unfold selected
  rw [highFiltered bounded]
  split
  · exact List.prefix_rfl
  · exact List.take_prefix _ _

theorem selectedCount (bounded : ∀ entry ∈ entries, entry.Bounded) :
    (selected filter entries).length =
      if filter.maxEntries = 0 then (highEnough filter entries).length
      else min filter.maxEntries (highEnough filter entries).length := by
  unfold selected
  rw [highFiltered bounded]
  split
  · rfl
  · exact List.length_take

end Selection

theorem addressesAccepted {addresses : List String}
    (valid : ∀ address ∈ addresses, isAddress address = true) :
    checkAddresses addresses = .ok () := by
  induction addresses with
  | nil => rfl
  | cons address rest ih =>
    obtain ⟨own, others⟩ := List.forall_mem_cons.mp valid
    have accepted : checkAddress address = .ok () := if_pos own
    exact Results.bindOk.mpr ⟨(), accepted, ih others⟩

section Runs

variable {ι ν : Type} {answer : Call → ν → Reply × ν} {filter : UtxoFilter} {json : Json}
  {entries : List UtxoReply} {node after : ν}

theorem getUtxosRun (valid : ∀ address ∈ filter.addresses, isAddress address = true)
    (replied : answer (utxosCall filter.addresses) node = (.ok json, after))
    (listed : Json.listOf? UtxoReply.ofJson? json = some entries) (store : Store) :
    Job.run answer (getUtxos (ι := ι) filter).run store node =
      ⟨((selected filter entries).mapM utxoOf).mapError fun fault =>
        Handler.internal fault.message, [], store, after⟩ := by
  have checked : Job.run answer
      (Handler.ofExcept id (checkAddresses filter.addresses) : Handler ι Unit).run store node =
        ⟨.ok (), [], store, node⟩ := by
    rw [Handler.ofExceptRun, addressesAccepted valid]
    rfl
  unfold getUtxos
  rw [Handler.thenRun _ checked, Handler.thenRun _ (Handler.requestRun replied listed),
    Handler.ofExceptRun]

theorem utxosSelected (valid : ∀ address ∈ filter.addresses, isAddress address = true)
    (replied : answer (utxosCall filter.addresses) node = (.ok json, after))
    (listed : Json.listOf? UtxoReply.ofJson? json = some entries)
    (bounded : ∀ entry ∈ entries, entry.Bounded) (store : Store) :
    let high := highEnough filter entries
    let list := Job.run answer (getUtxos (ι := ι) filter).run store node
    let streaming := Job.run answer (getUtxoStream (ι := ι) filter).run store node
    ∃ chosen, chosen <+: high ∧
      chosen.length =
        (if filter.maxEntries = 0 then high.length else min filter.maxEntries high.length) ∧
      ((∀ entry ∈ chosen, entry.Readable) → ∃ utxos stream,
        List.Forall₂ UtxoReply.SentAs chosen utxos ∧
        list = ⟨.ok utxos, [], store, after⟩ ∧ streaming = ⟨.ok stream, [], store, after⟩ ∧
        stream.limit = none ∧ ∀ later node,
          Job.run answer stream.produce later node = ⟨none, utxos, later, node⟩) ∧
      ((∃ entry ∈ chosen, ¬ entry.Readable) → ∃ before entry others fault,
        chosen = before ++ entry :: others ∧ (∀ earlier ∈ before, earlier.Readable) ∧
        entry.Faulty fault ∧
        list = ⟨.error (Handler.internal fault.message), [], store, after⟩ ∧
        streaming = ⟨.error (Handler.internal fault.message), [], store, after⟩) := by
  intro high list streaming
  have ran := getUtxosRun (ι := ι) valid replied listed store
  have within : ∀ entry ∈ selected filter entries, entry.Bounded := fun entry member =>
    bounded entry (List.mem_of_mem_filter ((selectedFirst bounded).subset member))
  refine ⟨selected filter entries, selectedFirst bounded, selectedCount bounded,
    fun readable => ?_, fun unreadable => ?_⟩
  · cases made : (selected filter entries).mapM utxoOf with
    | error fault =>
      obtain ⟨before, entry, others, same, _, failed⟩ := Results.mapMFault made
      have member : entry ∈ selected filter entries := by simp [same]
      obtain ⟨utxo, own⟩ := utxoReadable.mpr (readable entry member)
      cases own.symm.trans failed
    | ok utxos =>
      rw [made] at ran
      exact ⟨utxos, .ofList utxos, utxosSentAs within (Results.mapMOk.mp made), ran,
        Handler.thenRun _ ran, rfl, fun _ _ => Stream.emitAllRun utxos⟩
  · cases made : (selected filter entries).mapM utxoOf with
    | error fault =>
      rw [made] at ran
      obtain ⟨before, entry, others, same, good, failed⟩ := Results.mapMFault made
      exact ⟨before, entry, others, fault, same,
        fun earlier member => utxoReadable.mp (good earlier member), utxoFaulty failed, ran,
        Handler.failsRun _ ran⟩
    | ok utxos =>
      obtain ⟨entry, member, unread⟩ := unreadable
      have image : utxoOf entry ∈ utxos.map Except.ok := by
        rw [← Results.mapMOk.mp made]
        exact List.mem_map_of_mem member
      obtain ⟨utxo, _, own⟩ := List.mem_map.mp image
      exact absurd (utxoReadable.mp ⟨utxo, own.symm⟩) unread

end Runs

def output (txid : String) (index height : Nat) : UtxoReply :=
  ⟨"t1Zmr6YMH2gTH4pDuWc3NL6bqqKF9zXpyPa", txid, index, "76a9", 5000, height⟩

def fourOutputs : List UtxoReply :=
  [output "zz" 0 5, output "0102" 1 10, output "0304" 2 11, output "zz" 3 12]

def outputsTold : Json :=
  .list (fourOutputs.map fun entry => .object [("address", .text entry.address),
    ("txid", .text entry.txid), ("outputIndex", .int entry.outputIndex),
    ("script", .text entry.script), ("satoshis", .nat entry.satoshis),
    ("height", .int entry.height)])

/- What is unreadable stands below the first height, and past the limit. -/
theorem readableBetween :
    let address := "t1Zmr6YMH2gTH4pDuWc3NL6bqqKF9zXpyPa"
    let filter : UtxoFilter := ⟨[address], 10, 2⟩
    let answer (_ : Call) (asked : Nat) : Reply × Nat := (.ok outputsTold, asked + 1)
    let store : Store := { now := 0, window := .startingAt 1, mempool := .fresh 2000 }
    (∀ address ∈ filter.addresses, isAddress address = true) ∧
      answer (utxosCall filter.addresses) 0 = (.ok outputsTold, 1) ∧
      Json.listOf? UtxoReply.ofJson? outputsTold = some fourOutputs ∧
      (∀ entry ∈ fourOutputs, entry.Bounded) ∧
      ∃ first second, Job.run answer (getUtxos (ι := Empty) filter).run store 0 =
          ⟨.ok [first, second], [], store, 1⟩ ∧
        first.txid = [2, 1] ∧ first.height = 10 ∧ second.txid = [4, 3] ∧ second.height = 11 := by
  intro address filter answer store
  have valid : ∀ address ∈ filter.addresses, isAddress address = true := by decide
  have replied : answer (utxosCall filter.addresses) 0 = (.ok outputsTold, 1) := rfl
  have listed : Json.listOf? UtxoReply.ofJson? outputsTold = some fourOutputs := rfl
  have bounded : ∀ entry ∈ fourOutputs, entry.Bounded := by
    intro entry member
    simp only [fourOutputs, List.mem_cons, List.not_mem_nil, or_false] at member
    rcases member with rfl | rfl | rfl | rfl
    · exact ⟨by decide, by decide, by decide⟩
    · exact ⟨by decide, by decide, by decide⟩
    · exact ⟨by decide, by decide, by decide⟩
    · exact ⟨by decide, by decide, by decide⟩
  refine ⟨valid, replied, listed, bounded, ?_⟩
  obtain ⟨chosen, first, count, sent, _⟩ :=
    utxosSelected (ι := Empty) valid replied listed bounded store
  have two : chosen = [output "0102" 1 10, output "0304" 2 11] := by
    have length : chosen.length = 2 := count
    rw [List.prefix_iff_eq_take.mp first, length]
    rfl
  subst two
  have readable : ∀ entry ∈ [output "0102" 1 10, output "0304" 2 11], entry.Readable :=
    List.forall_mem_cons.mpr ⟨⟨by decide, by decide⟩,
      List.forall_mem_singleton.mpr ⟨by decide, by decide⟩⟩
  obtain ⟨utxos, stream, shown, ran, _⟩ := sent readable
  obtain ⟨low, rest, lower, others, rfl⟩ := List.forall₂_cons_left_iff.mp shown
  obtain ⟨high, none, upper, last, rfl⟩ := List.forall₂_cons_left_iff.mp others
  cases last
  have lowRead : Hex.decode "0102" = .ok [1, 2] := rfl
  have highRead : Hex.decode "0304" = .ok [3, 4] := rfl
  have lowId : low.txid.reverse = [1, 2] := Except.ok.inj (lower.txid.symm.trans lowRead)
  have highId : high.txid.reverse = [3, 4] := Except.ok.inj (upper.txid.symm.trans highRead)
  exact ⟨low, high, ran, List.reverse_eq_iff.mp lowId, Int.ofNat.inj lower.height,
    List.reverse_eq_iff.mp highId, Int.ofNat.inj upper.height⟩

end Wallet

end WalletProxy
