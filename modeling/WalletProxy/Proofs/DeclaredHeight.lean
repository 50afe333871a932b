import WalletProxy.Proofs.BlockFormat

/-! The height that a transaction declares. The reader of heights passes over what stands before the
inputs by itself, without the reader of transactions; in every layout it comes to the place where
that one reads the inputs, so the script that it looks at is the first input's. -/
namespace WalletProxy
open Reader

namespace TxInput

def write (input : TxInput) : Bytes :=
  input.prevTx.val ++ Bytes.ofNat 4 input.prevIndex.toNat ++
    CompactSize.write input.script.length ++ input.script ++ Bytes.ofNat 4 input.sequence.toNat

theorem inputExact :
    Exact TxInput.read (fun input => input.script.length ≤ CompactSize.limit) write := by
  intro bytes input rest
  simp only [TxInput.read, bindOk, bytes32Ok, wordOk, CompactSize.bytesOk, pureOk]
  constructor
  · intro h
    obtain ⟨prevTx, _, rfl, prevIndex, _, rfl, script, _, ⟨bounded, rfl⟩, sequence, _, rfl, rfl,
      rfl⟩ := h
    exact ⟨bounded, by simp only [write, List.append_assoc]⟩
  · intro h
    obtain ⟨bounded, rfl⟩ := h
    refine ⟨input.prevTx, _, ?_, input.prevIndex, _, rfl, input.script, _, ⟨bounded, rfl⟩,
      input.sequence, rest, rfl, rfl, rfl⟩
    simp only [write, List.append_assoc]

end TxInput

theorem TxBody.skipOk {count : Nat} {input rest : Bytes} {value : Unit} :
    TxBody.skip count input = .ok (value, rest) ↔
      ∃ front, front.length = count ∧ input = front ++ rest := by
  simp only [TxBody.skip, bindOk, takeOk, pureOk]
  constructor
  · intro h
    obtain ⟨front, _, ⟨size, rfl⟩, _, rfl⟩ := h
    exact ⟨front, size, rfl⟩
  · intro h
    obtain ⟨front, size, rfl⟩ := h
    exact ⟨front, rest, ⟨size, rfl⟩, trivial, rfl⟩

namespace Coinbase

def nextScript : Reader (Option Bytes) := do
  let inputs ← CompactSize.read
  if inputs = 0 then return none
  TxBody.skip 36
  let script ← CompactSize.bytes
  return some script

theorem nextScriptRead {inputs : List TxInput} {input rest : Bytes}
    (taken : CompactSize.vector TxInput.read input = .ok (inputs, rest)) :
    ∃ left, nextScript input = .ok (inputs.head?.map TxInput.script, left) := by
  obtain ⟨count, fits, rfl⟩ := (CompactSize.vectorOk TxInput.inputExact).mp taken
  simp only [nextScript, bindOk, CompactSize.readOk]
  cases inputs with
  | nil => exact ⟨_, 0, rest, ⟨count, rfl⟩, rfl⟩
  | cons first others =>
    obtain ⟨bounded, _⟩ := List.forall_mem_cons.mp fits
    refine ⟨Bytes.ofNat 4 first.sequence.toNat ++ others.flatMap TxInput.write ++ rest,
      others.length + 1, (first :: others).flatMap TxInput.write ++ rest,
      ⟨count, by rw [List.length_cons, List.append_assoc]⟩, ?_⟩
    rw [if_neg (Nat.succ_ne_zero _)]
    simp only [bindOk, TxBody.skipOk, CompactSize.bytesOk, pureOk]
    refine ⟨(), _, ⟨first.prevTx.val ++ Bytes.ofNat 4 first.prevIndex.toNat, ?_, ?_⟩,
      first.script, _, ⟨bounded, rfl⟩, rfl, rfl⟩
    · rw [List.length_append, first.prevTx.property, Bytes.lengthOfNat]
    · simp only [List.flatMap_cons, TxInput.write, List.append_assoc]

theorem firstScriptIs : firstScript = (do
    let header ← word
    if header ≠ header &&& 0x7fffffff then
      TxBody.skip 4
      if 5 ≤ header &&& 0x7fffffff then
        TxBody.skip 12
        nextScript
      else nextScript
    else nextScript) := rfl

def unread : TxFormat → Nat
  | .unified _ => 8
  | .sprout _ | .overwinter | .sapling => 0

inductive Names : TxFormat → Bytes → Prop where
  | plain {header : UInt32} {version : Nat} (own : header = header &&& 0x7fffffff) :
      Names (.sprout version) (Bytes.ofNat 4 header.toNat)
  | grouped {header group : UInt32} {format : TxFormat} (marked : header ≠ header &&& 0x7fffffff)
      (early : ¬ 5 ≤ header &&& 0x7fffffff) (inputsNext : unread format = 0) :
      Names format (Bytes.ofNat 4 header.toNat ++ Bytes.ofNat 4 group.toNat)
  | branched {header group branch : UInt32} (marked : header ≠ header &&& 0x7fffffff)
      (late : 5 ≤ header &&& 0x7fffffff) :
      Names (.unified branch) (Bytes.ofNat 4 header.toNat ++ Bytes.ofNat 4 group.toNat ++
        Bytes.ofNat 4 branch.toNat)

theorem formatNamed {data middle : Bytes} {format : TxFormat}
    (named : TxFormat.read data = .ok (format, middle)) :
    ∃ front, Names format front ∧ data = front ++ middle := by
  unfold TxFormat.read at named
  simp only [bindOk, wordOk] at named
  obtain ⟨header, tail, rfl, named⟩ := named
  split at named
  · rename_i own
    simp only [bindOk, requireOk, pureOk] at named
    obtain ⟨_, _, ⟨_, rfl⟩, rfl, rfl⟩ := named
    exact ⟨_, .plain own, rfl⟩
  · rename_i marked
    simp only [bindOk, wordOk] at named
    obtain ⟨group, rest, rfl, named⟩ := named
    rw [← List.append_assoc]
    split at named
    · rename_i third
      obtain ⟨rfl, rfl⟩ := pureOk.mp named
      exact ⟨_, .grouped marked (by rw [third.1]; decide) rfl, rfl⟩
    · split at named
      · rename_i fourth
        obtain ⟨rfl, rfl⟩ := pureOk.mp named
        exact ⟨_, .grouped marked (by rw [fourth.1]; decide) rfl, rfl⟩
      · split at named
        · rename_i fifth
          simp only [TxFormat.readBranch, bindOk, wordOk, requireOk, pureOk] at named
          obtain ⟨branch, _, rfl, _, _, ⟨_, rfl⟩, rfl, rfl⟩ := named
          have late : 5 ≤ header &&& 0x7fffffff := by
            rw [fifth.1]
            decide
          exact ⟨_, .branched marked late, (List.append_assoc _ _ _).symm⟩
        · exact absurd named throwOk

theorem firstScriptBehind {front between behind left : Bytes} {format : TxFormat}
    {script : Option Bytes} (names : Names format front) (size : between.length = unread format)
    (next : nextScript behind = .ok (script, left)) :
    firstScript (front ++ (between ++ behind)) = .ok (script, left) := by
  rw [firstScriptIs]
  simp only [bindOk, wordOk]
  cases names with
  | @plain header _ own =>
    refine ⟨header, between ++ behind, rfl, ?_⟩
    rw [if_neg (not_not_intro own), List.length_eq_zero_iff.mp size]
    exact next
  | @grouped header group _ marked early inputsNext =>
    rw [List.append_assoc]
    refine ⟨header, _, rfl, ?_⟩
    rw [if_pos marked, if_neg early]
    rw [inputsNext, List.length_eq_zero_iff] at size
    simp only [bindOk, TxBody.skipOk]
    refine ⟨(), behind, ⟨_, Bytes.lengthOfNat 4 group.toNat, ?_⟩, next⟩
    rw [size, List.nil_append]
  | @branched header group branch marked late =>
    rw [List.append_assoc, List.append_assoc]
    refine ⟨header, _, rfl, ?_⟩
    rw [if_pos marked, if_pos late]
    simp only [bindOk, TxBody.skipOk]
    refine ⟨(), _, ⟨_, Bytes.lengthOfNat 4 group.toNat, rfl⟩, (), behind,
      ⟨Bytes.ofNat 4 branch.toNat ++ between, ?_, ?_⟩, next⟩
    · rw [List.length_append, Bytes.lengthOfNat, size]
      rfl
    · rw [List.append_assoc]

end Coinbase

namespace TxBody
open Coinbase (nextScript nextScriptRead unread)

variable {body : TxBody} {input rest : Bytes}

theorem sproutInputs {version : Nat} (ok : readSprout version input = .ok (body, rest)) :
    ∃ middle, CompactSize.vector TxInput.read input = .ok (body.inputs, middle) := by
  unfold readSprout at ok
  simp only [bindOk] at ok
  obtain ⟨inputs, middle, taken, _, _, _, _, _, _, ok⟩ := ok
  split at ok
  · simp only [bindOk, pureOk] at ok
    obtain ⟨_, _, _, rfl, _⟩ := ok
    exact ⟨middle, taken⟩
  · obtain ⟨rfl, _⟩ := pureOk.mp ok
    exact ⟨middle, taken⟩

theorem overwinterInputs (ok : readOverwinter input = .ok (body, rest)) :
    ∃ middle, CompactSize.vector TxInput.read input = .ok (body.inputs, middle) := by
  simp only [readOverwinter, bindOk, pureOk] at ok
  obtain ⟨inputs, middle, taken, _, _, _, _, _, _, _, _, _, _, _, _, rfl, _⟩ := ok
  exact ⟨middle, taken⟩

theorem saplingInputs (ok : readSapling input = .ok (body, rest)) :
    ∃ middle, CompactSize.vector TxInput.read input = .ok (body.inputs, middle) := by
  unfold readSapling at ok
  simp only [bindOk] at ok
  obtain ⟨inputs, middle, taken, _, _, _, _, _, _, _, _, _, _, _, _, _, _, _, _, _, _, _, _, _,
    ok⟩ := ok
  split at ok
  · simp only [bindOk, pureOk] at ok
    obtain ⟨_, _, _, rfl, _⟩ := ok
    exact ⟨middle, taken⟩
  · obtain ⟨rfl, _⟩ := pureOk.mp ok
    exact ⟨middle, taken⟩

theorem unifiedInputs {branch : UInt32} (ok : readUnified branch input = .ok (body, rest)) :
    ∃ front behind middle, front.length = 8 ∧ input = front ++ behind ∧
      CompactSize.vector TxInput.read behind = .ok (body.inputs, middle) := by
  simp only [readUnified, bindOk, wordOk, pureOk] at ok
  obtain ⟨lockTime, _, rfl, expiry, behind, rfl, inputs, middle, taken, _, _, _, _, _, _, _, _, _,
    rfl, _⟩ := ok
  refine ⟨Bytes.ofNat 4 lockTime.toNat ++ Bytes.ofNat 4 expiry.toNat, behind, middle, ?_, ?_, taken⟩
  · rw [List.length_append, Bytes.lengthOfNat, Bytes.lengthOfNat]
  · rw [List.append_assoc]

/- In the unified layout lock time and expiry come first, in the older ones the inputs do. -/
theorem scriptOfFirst {data : Bytes} (ok : TxBody.read data = .ok (body, rest)) :
    ∃ left, Coinbase.firstScript data = .ok (body.inputs.head?.map TxInput.script, left) := by
  simp only [TxBody.read, bindOk] at ok
  obtain ⟨format, input, named, ok⟩ := ok
  obtain ⟨front, behind, middle, size, rfl, taken⟩ : ∃ front behind middle,
      front.length = unread format ∧ input = front ++ behind ∧
        CompactSize.vector TxInput.read behind = .ok (body.inputs, middle) := by
    cases format with
    | sprout version =>
      obtain ⟨middle, taken⟩ := sproutInputs ok
      exact ⟨[], input, middle, rfl, rfl, taken⟩
    | overwinter =>
      obtain ⟨middle, taken⟩ := overwinterInputs ok
      exact ⟨[], input, middle, rfl, rfl, taken⟩
    | sapling =>
      obtain ⟨middle, taken⟩ := saplingInputs ok
      exact ⟨[], input, middle, rfl, rfl, taken⟩
    | unified branch => exact unifiedInputs ok
  obtain ⟨left, next⟩ := nextScriptRead taken
  obtain ⟨name, names, rfl⟩ := Coinbase.formatNamed named
  exact ⟨left, Coinbase.firstScriptBehind names size next⟩

end TxBody

theorem Transaction.bodyRead {data : Bytes} {decoded : Transaction}
    (ok : Transaction.read data = .ok (decoded, [])) :
    TxBody.read data = .ok (decoded.body, []) := by
  simp only [Transaction.read, bindOk, Prod.exists, consumedOk, pureOk] at ok
  obtain ⟨body, raw, _, ⟨same, taken⟩, rfl, rfl⟩ := ok
  rw [same, List.append_nil]
  exact taken

namespace Coinbase

theorem scriptHeightUnread (script : Bytes) (fault : ReadError) :
    scriptHeight script ≠ .error (.read fault) := by
  unfold scriptHeight
  split
  · intro same
    cases same
  · intro same
    cases same

theorem heightOfFirst {data : Bytes} {tx : BlockTx} (ok : BlockTx.ofBytes data = .ok tx) :
    ∃ decoded, tx.decode = .ok decoded ∧
      height data = (match decoded.body.inputs with
        | [] => .error .noHeight
        | first :: _ => scriptHeight first.script) ∧
      ∀ fault, height data ≠ .error (.read fault) := by
  obtain ⟨rfl, decoded, taken, _⟩ := BlockTx.ofBytesOk.mp ok
  obtain ⟨left, script⟩ := TxBody.scriptOfFirst (Transaction.bodyRead taken)
  refine ⟨decoded, wholeOk.mpr taken, ?_⟩
  unfold height
  rw [script]
  cases decoded.body.inputs with
  | nil =>
    refine ⟨rfl, ?_⟩
    intro fault same
    cases same
  | cons first others => exact ⟨rfl, scriptHeightUnread first.script⟩

def unifiedCoinbase : Bytes :=
  [0x05, 0x00, 0x00, 0x80, 0x0a, 0x27, 0xa7, 0x26, 0xb4, 0xd0, 0xd6, 0xc2] ++
    List.replicate 8 0 ++ 0x01 :: (List.replicate 36 0 ++ [0x03, 0x02, 0x2c, 0x01] ++
    List.replicate 8 0)

theorem unifiedHeight :
    ∃ tx decoded, BlockTx.ofBytes unifiedCoinbase = .ok tx ∧ tx.decode = .ok decoded ∧
      decoded.body.inputs.map TxInput.script = [[0x02, 0x2c, 0x01]] ∧
      height unifiedCoinbase = .ok 300 := by
  have parsed : ∃ tx, BlockTx.ofBytes unifiedCoinbase = .ok tx := ⟨_, rfl⟩
  have scripts : (Transaction.ofBytes unifiedCoinbase).map
      (fun decoded => decoded.body.inputs.map TxInput.script) = .ok [[0x02, 0x2c, 0x01]] := by rfl
  obtain ⟨tx, ok⟩ := parsed
  obtain ⟨decoded, decodes, declared, _⟩ := heightOfFirst ok
  obtain ⟨data, _⟩ := BlockTx.ofBytesOk.mp ok
  rw [BlockTx.decode, data] at decodes
  rw [decodes] at scripts
  have only := Except.ok.inj scripts
  obtain ⟨first, inputs, script⟩ := List.map_eq_singleton_iff.mp only
  refine ⟨tx, decoded, ok, by rw [BlockTx.decode, data, decodes], only, ?_⟩
  rw [declared, inputs]
  show scriptHeight first.script = _
  rw [script]
  rfl

end Coinbase

end WalletProxy
