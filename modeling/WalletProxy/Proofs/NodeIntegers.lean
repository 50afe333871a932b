import WalletProxy.Node.Remote
import WalletProxy.Proofs.JsonIntegers
import WalletProxy.Proofs.UtxoSelection

/-! The integers of a node on their way to a wallet. The text of a response keeps each of them or is
refused, and so does the reply that is read from it. The messages to wallets have narrower fields,
and an integer outside of one goes into it modulo the number of its values: a transaction that is
rejected with a code of this kind can look like one that is accepted. -/
namespace WalletProxy

namespace RemoteNode

def Reports (text : String) (code : Int) (message : String) : Prop :=
  ∃ json result error, Json.readMembers text = some json ∧
    writtenFields? ["result", "error"] json = some [result, some error] ∧
    writtenFields? ["code", "message"] error = some [some (.int code), some (.text message)]

theorem errorRead {error : Json} {fault : NodeError} :
    errorOfJson? error = some fault ↔ ∃ code message,
      writtenFields? ["code", "message"] error = some [some (.int code), some (.text message)] ∧
        (Int64.minValue.toInt ≤ code ∧ code ≤ Int64.maxValue.toInt) ∧
        fault = .reported code message := by
  unfold errorOfJson?
  simp only [Option.bind_eq_bind, Option.bind_eq_some_iff]
  constructor
  · rintro ⟨fields, written, read⟩
    split at read
    · simp only [Option.bind_eq_some_iff, Json.int64?, Json.intInOk, Json.textOk] at read
      obtain ⟨code, ⟨rfl, range⟩, message, rfl, same⟩ := read
      exact ⟨code, message, written, range, (Option.some.inj same).symm⟩
    · contradiction
  · rintro ⟨code, message, written, range, rfl⟩
    refine ⟨_, written, ?_⟩
    simp only [Option.bind_eq_some_iff, Json.int64?, Json.intInOk, Json.textOk]
    exact ⟨code, ⟨rfl, range⟩, message, rfl, rfl⟩

theorem presentOk {field : Option Json} {json : Json} :
    present field = some json ↔ field = some json ∧ json ≠ .null := by
  unfold present
  split
  · simp +contextual [eq_comm]
  · rename_i other
    constructor
    · rintro rfl
      exact ⟨rfl, fun null => other (congrArg some null)⟩
    · exact And.left

/- Null has no fields, so that an error with fields is one that is present. -/
theorem reportsReply {text : String} {code : Int} {message : String}
    (reports : Reports text code message) : ∃ error,
      writtenFields? ["code", "message"] error = some [some (.int code), some (.text message)] ∧
        replyOfText? text = (errorOfJson? error).map .error := by
  obtain ⟨json, result, error, read, written, fields⟩ := reports
  have there : present (some error) = some error := by
    refine presentOk.mpr ⟨rfl, ?_⟩
    rintro rfl
    cases fields
  refine ⟨error, fields, ?_⟩
  simp only [replyOfText?, read, written, there, Option.bind_eq_bind, Option.bind_some]
  rw [Option.map_eq_bind]
  rfl

theorem reportRead {text : String} {fault : NodeError} :
    replyOfText? text = some (.error fault) ↔ ∃ code message, Reports text code message ∧
      (Int64.minValue.toInt ≤ code ∧ code ≤ Int64.maxValue.toInt) ∧
      fault = .reported code message := by
  constructor
  · intro replied
    simp only [replyOfText?, Option.bind_eq_bind, Option.bind_eq_some_iff] at replied
    obtain ⟨json, read, fields, written, replied⟩ := replied
    split at replied
    · split at replied
      · rename_i error there
        obtain ⟨rfl, _⟩ := presentOk.mp there
        obtain ⟨own, known, same⟩ := Option.bind_eq_some_iff.mp replied
        cases same
        obtain ⟨code, message, told, range, rfl⟩ := errorRead.mp known
        exact ⟨code, message, ⟨json, _, error, read, written, told⟩, range, rfl⟩
      · cases replied
    · cases replied
  · rintro ⟨code, message, reports, range, rfl⟩
    obtain ⟨error, fields, replied⟩ := reportsReply reports
    rw [replied, errorRead.mpr ⟨code, message, fields, range, rfl⟩]
    rfl

theorem resultUnreported {text : String} {json : Json}
    (replied : replyOfText? text = some (.ok json)) (code : Int) (message : String) :
    ¬ Reports text code message := by
  intro reports
  obtain ⟨error, _, told⟩ := reportsReply reports
  obtain ⟨fault, _, other⟩ := Option.map_eq_some_iff.mp (told.symm.trans replied)
  cases other

theorem replyOfTold {response : Except String String} {reply : Reply}
    (told : ∀ detail, reply ≠ .error (.unreachable detail)) :
    replyOf response = reply ↔ ∃ text, response = .ok text ∧ replyOfText? text = some reply := by
  cases response with
  | error detail =>
    constructor
    · intro same
      exact absurd same.symm (told detail)
    · rintro ⟨_, same, _⟩
      cases same
  | ok text =>
    simp only [replyOf, Except.ok.injEq, exists_eq_left']
    cases replyOfText? text with
    | none =>
      constructor
      · intro same
        exact absurd same.symm (told _)
      · intro same
        cases same
    | some other => simp

theorem replyOfOk {response : Except String String} {json : Json} :
    replyOf response = .ok json ↔
      ∃ text, response = .ok text ∧ replyOfText? text = some (.ok json) :=
  replyOfTold fun _ => nofun

theorem replyOfReported {response : Except String String} {code : Int} {message : String} :
    replyOf response = .error (.reported code message) ↔ ∃ text, response = .ok text ∧
      Reports text code message ∧ Int64.minValue.toInt ≤ code ∧ code ≤ Int64.maxValue.toInt := by
  have told (detail : String) :
      (.error (.reported code message) : Reply) ≠ .error (.unreachable detail) := nofun
  rw [replyOfTold told]
  simp only [reportRead, NodeError.reported.injEq]
  refine exists_congr fun text => and_congr_right fun _ => ?_
  constructor
  · rintro ⟨_, _, reports, range, rfl, rfl⟩
    exact ⟨reports, range⟩
  · rintro ⟨reports, range⟩
    exact ⟨code, message, reports, range, rfl, rfl⟩

end RemoteNode

namespace Wallet

/-- What a signed field that has `size` values carries of an integer that the node tells. -/
structure Carried (size : Nat) (told sent : Int) : Prop where
  residue : sent = told.bmod size
  kept : sent = told ↔ -(size / 2 : Int) ≤ told ∧ told < size / 2
  zero : sent = 0 ↔ (size : Int) ∣ told

theorem carriedResidue {size : Nat} (positive : 0 < size) (even : size % 2 = 0) {told sent : Int} :
    Carried size told sent ↔ sent = told.bmod size := by
  constructor
  · exact Carried.residue
  · rintro rfl
    refine ⟨rfl, ?_, Int.dvd_iff_bmod_eq_zero.symm⟩
    rw [Int.bmod_eq_iff positive]
    simp only [Int.sub_self, Int.dvd_zero, and_true]
    omega

theorem carried32 {told : Int} {sent : Int32} :
    Carried Int32.size told sent.toInt ↔ sent = Int32.ofInt told := by
  rw [carriedResidue (by decide) (by decide), ← Int32.toInt_inj, Int32.toInt_ofInt]

theorem carried64 {told : Nat} {sent : Int64} :
    Carried Int64.size told sent.toInt ↔ sent = Int64.ofNat told := by
  rw [carriedResidue (by decide) (by decide), ← Int64.toInt_inj, ← Int64.ofInt_eq_ofNat,
    Int64.toInt_ofInt]

def resultText : Json → String
  | .null => ""
  | json => json.print

theorem responseOk {reply : Reply} {response : SendResponse} :
    responseOf reply = .ok response ↔
      (∃ json, reply = .ok json ∧ response = ⟨0, resultText json⟩) ∨
      ∃ code message, reply = .error (.reported code message) ∧
        response = ⟨Int32.ofInt code, message⟩ := by
  constructor
  · intro made
    unfold responseOf at made
    split at made
    · cases made
      exact .inl ⟨.null, rfl, rfl⟩
    · rename_i json other
      cases made
      refine .inl ⟨json, rfl, ?_⟩
      unfold resultText
      split
      · contradiction
      · rfl
    · rename_i code message
      cases made
      exact .inr ⟨code, message, rfl, rfl⟩
    · cases made
  · rintro (⟨json, rfl, rfl⟩ | ⟨code, message, rfl, rfl⟩)
    · cases json <;> rfl
    · rfl

structure Rejected (text : String) (code : Int) (response : SendResponse) : Prop where
  reported : RemoteNode.Reports text code response.message
  range : Int64.minValue.toInt ≤ code ∧ code ≤ Int64.maxValue.toInt
  code : Carried Int32.size code response.code.toInt

structure Accepted (text : String) (response : SendResponse) : Prop where
  unreported : ∀ code message, ¬ RemoteNode.Reports text code message
  result : ∃ json, RemoteNode.replyOfText? text = some (.ok json) ∧
    response.message = resultText json
  code : response.code = 0

end Wallet

structure UtxoReply.Told (json : Json) (entry : UtxoReply) : Prop where
  fields : json.fields? ["address", "txid", "outputIndex", "script", "satoshis", "height"] =
    some [some (.text entry.address), some (.text entry.txid), some (.int entry.outputIndex),
      some (.text entry.script), some (.nat entry.satoshis), some (.int entry.height)]
  index : Int64.minValue.toInt ≤ entry.outputIndex ∧ entry.outputIndex ≤ Int64.maxValue.toInt
  value : entry.satoshis < UInt64.size
  height : Int64.minValue.toInt ≤ entry.height ∧ entry.height ≤ Int64.maxValue.toInt

structure UtxoReply.CastAs (entry : UtxoReply) (utxo : Wallet.Utxo) : Prop where
  address : utxo.address = entry.address
  txid : Hex.decode entry.txid = .ok utxo.txid.reverse
  script : Hex.decode entry.script = .ok utxo.script
  index : Wallet.Carried Int32.size entry.outputIndex utxo.index.toInt
  value : Wallet.Carried Int64.size entry.satoshis utxo.value.toInt
  height : utxo.height = entry.height.toNat

theorem UtxoReply.readTold {json : Json} {entry : UtxoReply} :
    ofJson? json = some entry ↔ Told json entry := by
  unfold ofJson?
  simp only [Option.bind_eq_bind, Option.bind_eq_some_iff]
  constructor
  · rintro ⟨fields, written, read⟩
    split at read
    · simp only [Option.bind_eq_some_iff, Json.int64?, Json.intInOk, Json.textOk, Json.nat64Ok]
        at read
      obtain ⟨address, rfl, txid, rfl, index, ⟨rfl, indexRange⟩, script, rfl, value,
        ⟨rfl, valueRange⟩, height, ⟨rfl, heightRange⟩, same⟩ := read
      cases same
      exact ⟨written, indexRange, valueRange, heightRange⟩
    · contradiction
  · intro told
    refine ⟨_, told.fields, ?_⟩
    simp only [Option.bind_eq_some_iff, Json.int64?, Json.intInOk, Json.textOk, Json.nat64Ok]
    exact ⟨_, rfl, _, rfl, _, ⟨rfl, told.index⟩, _, rfl, _, ⟨rfl, told.value⟩, _,
      ⟨rfl, told.height⟩, rfl⟩

namespace Wallet

theorem utxoCastAs {entry : UtxoReply} {utxo : Utxo} :
    utxoOf entry = .ok utxo ↔ entry.CastAs utxo := by
  constructor
  · intro made
    obtain ⟨txid, first, made⟩ := Results.bindOk.mp made
    obtain ⟨script, second, made⟩ := Results.bindOk.mp made
    cases made
    exact ⟨rfl, by rwa [List.reverse_reverse], second, carried32.mpr rfl, carried64.mpr rfl, rfl⟩
  · intro cast
    obtain ⟨address, txid, index, script, value, height⟩ := utxo
    refine Results.bindOk.mpr ⟨_, cast.txid, Results.bindOk.mpr ⟨_, cast.script, ?_⟩⟩
    obtain rfl : address = entry.address := cast.address
    obtain rfl := carried32.mp cast.index
    obtain rfl := carried64.mp cast.value
    obtain rfl : height = entry.height.toNat := cast.height
    rw [List.reverse_reverse]
    rfl

theorem utxosCastAs {entries : List UtxoReply} {utxos : List Utxo} :
    entries.map utxoOf = utxos.map .ok ↔ List.Forall₂ UtxoReply.CastAs entries utxos := by
  rw [← List.forall₂_eq_eq_eq, List.forall₂_map_left_iff, List.forall₂_map_right_iff]
  simp only [utxoCastAs]

theorem addressesChecked {addresses : List String} :
    checkAddresses addresses = .ok () ↔ ∀ address ∈ addresses, isAddress address = true := by
  refine ⟨fun checked => ?_, addressesAccepted⟩
  induction addresses with
  | nil => exact List.forall_mem_nil _
  | cons address rest ih =>
    obtain ⟨_, own, others⟩ := Results.bindOk.mp checked
    refine List.forall_mem_cons.mpr ⟨?_, ih others⟩
    unfold checkAddress at own
    split at own
    · assumption
    · cases own

section Runs

variable {ι ν : Type} {answer : Call → ν → Reply × ν} {store : Store} {node : ν}

theorem sendRun (tx : RawTx) :
    (Job.run answer (sendTransaction (ι := ι) tx).run store node).value =
      if tx.data = [] then .error (Handler.invalid "bad Transaction or Data")
      else responseOf (answer (sendCall tx.data) node).1 := by
  obtain ⟨data, height⟩ := tx
  cases data with
  | nil => rfl
  | cons byte rest => rfl

theorem utxosRun {filter : UtxoFilter} {utxos : List Utxo} :
    (Job.run answer (getUtxos (ι := ι) filter).run store node).value = .ok utxos ↔
      (∀ address ∈ filter.addresses, isAddress address = true) ∧
      ∃ json entries, (answer (utxosCall filter.addresses) node).1 = .ok json ∧
        Json.listOf? UtxoReply.ofJson? json = some entries ∧
        (selected filter entries).map utxoOf = utxos.map .ok := by
  unfold getUtxos
  simp only [Handler.bindRunOk, Handler.ofExceptRun, Handler.askedRun, Results.mapErrorOk,
    Node.readReplyOk, Results.mapMOk]
  constructor
  · rintro ⟨_, checked, entries, ⟨json, replied, listed⟩, made⟩
    exact ⟨addressesChecked.mp checked, json, entries, replied, listed, made⟩
  · rintro ⟨valid, json, entries, replied, listed, made⟩
    exact ⟨(), addressesChecked.mpr valid, entries, ⟨json, replied, listed⟩, made⟩

variable {transport : HttpRequest → Except String String} {remote : RemoteNode}

theorem sendAnswered {tx : RawTx} {response : SendResponse} :
    (Job.run (RemoteNode.call transport) (sendTransaction (ι := ι) tx).run store remote).value =
        .ok response ↔
      tx.data ≠ [] ∧ ∃ text, transport (remote.request (sendCall tx.data)).1 = .ok text ∧
        (Accepted text response ∨ ∃ code, Rejected text code response) := by
  rw [sendRun]
  split
  · rename_i empty
    simp [empty]
  · rename_i nonempty
    rw [and_iff_right nonempty, responseOk]
    have replied : (RemoteNode.call transport (sendCall tx.data) remote).1 =
        RemoteNode.replyOf (transport (remote.request (sendCall tx.data)).1) := rfl
    rw [replied]
    constructor
    · rintro (⟨json, told, rfl⟩ | ⟨code, message, told, rfl⟩)
      · obtain ⟨text, sent, read⟩ := RemoteNode.replyOfOk.mp told
        exact ⟨text, sent, .inl ⟨RemoteNode.resultUnreported read, ⟨json, read, rfl⟩, rfl⟩⟩
      · obtain ⟨text, sent, reports, range⟩ := RemoteNode.replyOfReported.mp told
        exact ⟨text, sent, .inr ⟨code, reports, range, carried32.mpr rfl⟩⟩
    · rintro ⟨text, sent, accepted | ⟨code, rejected⟩⟩
      · obtain ⟨json, read, message⟩ := accepted.result
        refine .inl ⟨json, RemoteNode.replyOfOk.mpr ⟨text, sent, read⟩, ?_⟩
        rw [← message, ← accepted.code]
      · refine .inr ⟨code, response.message,
          RemoteNode.replyOfReported.mpr ⟨text, sent, rejected.reported, rejected.range⟩, ?_⟩
        rw [← carried32.mp rejected.code]

theorem utxosAnswered {filter : UtxoFilter} {utxos : List Utxo} :
    (Job.run (RemoteNode.call transport) (getUtxos (ι := ι) filter).run store remote).value =
        .ok utxos ↔
      (∀ address ∈ filter.addresses, isAddress address = true) ∧
      ∃ text items entries,
        transport (remote.request (utxosCall filter.addresses)).1 = .ok text ∧
        RemoteNode.replyOfText? text = some (.ok (.list items)) ∧
        List.Forall₂ UtxoReply.Told items entries ∧
        List.Forall₂ UtxoReply.CastAs (selected filter entries) utxos := by
  have replied : (RemoteNode.call transport (utxosCall filter.addresses) remote).1 =
      RemoteNode.replyOf (transport (remote.request (utxosCall filter.addresses)).1) := rfl
  rw [utxosRun, replied]
  refine and_congr_right fun _ => ?_
  simp only [Json.listOfOk, UtxoReply.readTold, utxosCastAs]
  constructor
  · rintro ⟨_, entries, told, ⟨items, rfl, listed⟩, made⟩
    obtain ⟨text, sent, read⟩ := RemoteNode.replyOfOk.mp told
    exact ⟨text, items, entries, sent, read, listed, made⟩
  · rintro ⟨text, items, entries, sent, read, listed, made⟩
    exact ⟨_, entries, RemoteNode.replyOfOk.mpr ⟨text, sent, read⟩, ⟨items, rfl, listed⟩, made⟩

end Runs

/- Of the three steps only the last one can change an integer: the word in the text and the value in
the reply are the same wherever the call succeeds. -/
theorem integersCarried {ι : Type} (transport : HttpRequest → Except String String)
    (remote : RemoteNode) (store : Store) :
    let answer := RemoteNode.call transport
    (∀ word value, JsonNumber.read word = some (.int value) ↔
      word = (toString value).toList ∧ Int64.minValue.toInt ≤ value ∧ value < UInt64.size) ∧
    (∀ tx response,
      (Job.run answer (sendTransaction (ι := ι) tx).run store remote).value = .ok response ↔
        tx.data ≠ [] ∧ ∃ text, transport (remote.request (sendCall tx.data)).1 = .ok text ∧
          (Accepted text response ∨ ∃ code, Rejected text code response)) ∧
    (∀ filter utxos,
      (Job.run answer (getUtxos (ι := ι) filter).run store remote).value = .ok utxos ↔
        (∀ address ∈ filter.addresses, isAddress address = true) ∧
        ∃ text items entries,
          transport (remote.request (utxosCall filter.addresses)).1 = .ok text ∧
          RemoteNode.replyOfText? text = some (.ok (.list items)) ∧
          List.Forall₂ UtxoReply.Told items entries ∧
          List.Forall₂ UtxoReply.CastAs (selected filter entries) utxos) ∧
    ∀ filter stream,
      (Job.run answer (getUtxoStream (ι := ι) filter).run store remote).value = .ok stream ↔
        ∃ utxos, (Job.run answer (getUtxos (ι := ι) filter).run store remote).value = .ok utxos ∧
          stream = .ofList utxos := by
  refine ⟨fun _ _ => JsonNumber.readInt, fun _ _ => sendAnswered, fun _ _ => utxosAnswered, ?_⟩
  intro filter stream
  unfold getUtxoStream
  rw [Handler.bindRunOk]
  refine exists_congr fun utxos => and_congr_right fun _ => ?_
  exact Results.pureOk.trans eq_comm

def rejectionText : String :=
  "\x7b\"error\":\x7b\"code\":4294967296,\"message\":\"bad-txns\"\x7d\x7d"

theorem rejectionAsAccepted :
    let store : Store := { now := 0, window := .startingAt 1, mempool := .fresh 2000 }
    let remote := RemoteNode.connect "http://node" "user" "password"
    let answer := RemoteNode.call fun _ => .ok rejectionText
    RemoteNode.Reports rejectionText 4294967296 "bad-txns" ∧
      (Job.run answer (sendTransaction (ι := Empty) ⟨[0], 0⟩).run store remote).value =
        .ok ⟨0, "bad-txns"⟩ := by
  intro store remote answer
  let error : Json := .object [("code", .int 4294967296), ("message", .text "bad-txns")]
  have reports : RemoteNode.Reports rejectionText 4294967296 "bad-txns" :=
    ⟨.object [("error", error)], none, error, rfl, rfl, rfl⟩
  have rejected : Rejected rejectionText 4294967296 ⟨0, "bad-txns"⟩ :=
    ⟨reports, by decide, carried32.mpr rfl⟩
  exact ⟨reports, sendAnswered.mpr ⟨by decide, rejectionText, rfl, .inr ⟨_, rejected⟩⟩⟩

end Wallet

end WalletProxy
