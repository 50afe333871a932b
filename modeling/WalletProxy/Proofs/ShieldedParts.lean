import WalletProxy.Compact
import WalletProxy.Proofs.TransactionSequential

/-! The shielded parts of a transaction. In every layout a note's ciphertext is read in its full
length, so that the first bytes of it, which a light wallet is told, are always there. -/
namespace WalletProxy
open Reader

theorem isShieldedIff {tx : Transaction} : tx.isShielded = true ↔
    tx.body.sapling.spends ≠ [] ∨ tx.body.sapling.outputs ≠ [] ∨ tx.body.orchard.actions ≠ [] := by
  simp [Transaction.isShielded, TxBody.isShielded, SaplingPart.isEmpty, OrchardPart.isEmpty,
    ← List.isEmpty_eq_false_iff, or_assoc, Bool.or_eq_true]

namespace Reader

variable {α : Type} {item : Reader α} {good : α → Prop}

def Gives (reader : Reader α) (good : α → Prop) : Prop :=
  ∀ {input value rest}, reader input = .ok (value, rest) → good value

theorem manyAfterGives (each : Gives item good) {count : Nat} {done : List α}
    (earlier : ∀ value ∈ done, good value) :
    Gives (manyAfter item count done) fun values => ∀ value ∈ values, good value := by
  intro input values rest ok
  induction count generalizing done input with
  | zero =>
    obtain ⟨rfl, _⟩ := pureOk.mp ok
    simpa using earlier
  | succ count ih =>
    obtain ⟨first, middle, taken, onward⟩ := bindOk.mp ok
    exact ih (List.forall_mem_cons.mpr ⟨each taken, earlier⟩) onward

theorem vectorGives (each : Gives item good) :
    Gives (CompactSize.vector item) fun values => ∀ value ∈ values, good value := by
  intro input values rest ok
  obtain ⟨count, middle, _, taken⟩ := bindOk.mp ok
  exact manyAfterGives each (by simp) taken

end Reader

namespace TxBody

def ciphertextLength : Nat := 580

structure WholeNotes (body : TxBody) : Prop where
  outputs : ∀ output ∈ body.sapling.outputs, output.ciphertext.length = ciphertextLength
  actions : ∀ action ∈ body.orchard.actions, action.ciphertext.length = ciphertextLength

theorem outputWhole :
    Gives saplingOutput fun output => output.ciphertext.length = ciphertextLength := by
  intro input output rest ok
  simp only [saplingOutput, bindOk, takeOk, pureOk] at ok
  obtain ⟨_, _, _, _, _, _, _, _, _, ciphertext, _, ⟨size, _⟩, _, _, _, rfl, _⟩ := ok
  exact size

theorem provedOutputWhole :
    Gives saplingOutputWithProof fun output => output.ciphertext.length = ciphertextLength := by
  intro input output rest ok
  simp only [saplingOutputWithProof, bindOk, pureOk] at ok
  obtain ⟨_, _, taken, _, _, _, rfl, _⟩ := ok
  exact outputWhole taken

theorem actionWhole :
    Gives orchardAction fun action => action.ciphertext.length = ciphertextLength := by
  intro input action rest ok
  simp only [orchardAction, bindOk, takeOk, pureOk] at ok
  obtain ⟨_, _, _, _, _, _, _, _, _, _, _, _, _, _, _, ciphertext, _, ⟨size, _⟩, _, _, _, _, _, _,
    _, _, _, rfl, _⟩ := ok
  exact size

theorem unifiedSaplingWhole : Gives unifiedSapling fun part =>
    ∀ output ∈ part.outputs, output.ciphertext.length = ciphertextLength := by
  intro input part rest ok
  unfold unifiedSapling at ok
  simp only [bindOk] at ok
  obtain ⟨spends, _, _, outputs, _, taken, ok⟩ := ok
  split at ok
  · obtain ⟨rfl, _⟩ := pureOk.mp ok
    simp [SaplingPart.empty]
  · simp only [bindOk] at ok
    obtain ⟨_, _, _, ok⟩ := ok
    -- With spends or without, an anchor comes next.
    split at ok
    · simp only [bindOk, pureOk] at ok
      obtain ⟨_, _, _, _, _, _, rfl, _⟩ := ok
      exact vectorGives outputWhole taken
    · simp only [bindOk, pureOk] at ok
      obtain ⟨_, _, _, _, _, _, rfl, _⟩ := ok
      exact vectorGives outputWhole taken

theorem unifiedOrchardWhole (branch : UInt32) : Gives (unifiedOrchard branch) fun part =>
    ∀ action ∈ part.actions, action.ciphertext.length = ciphertextLength := by
  intro input part rest ok
  unfold unifiedOrchard at ok
  simp only [bindOk] at ok
  obtain ⟨actions, _, taken, ok⟩ := ok
  split at ok
  · obtain ⟨rfl, _⟩ := pureOk.mp ok
    simp [OrchardPart.empty]
  · simp only [bindOk, pureOk] at ok
    obtain ⟨_, _, _, _, _, _, _, _, _, _, _, _, _, _, _, _, _, _, _, _, _, rfl, _⟩ := ok
    exact vectorGives actionWhole taken

theorem bareWhole {body : TxBody} (sapling : body.sapling = .empty)
    (orchard : body.orchard = .empty) : body.WholeNotes := by
  constructor
  · simp [sapling, SaplingPart.empty]
  · simp [orchard, OrchardPart.empty]

theorem sproutWhole (version : Nat) : Gives (readSprout version) WholeNotes := by
  intro input body rest ok
  unfold readSprout at ok
  simp only [bindOk] at ok
  obtain ⟨_, _, _, _, _, _, _, _, _, ok⟩ := ok
  split at ok
  · simp only [bindOk, pureOk] at ok
    obtain ⟨_, _, _, rfl, _⟩ := ok
    exact bareWhole rfl rfl
  · obtain ⟨rfl, _⟩ := pureOk.mp ok
    exact bareWhole rfl rfl

theorem overwinterWhole : Gives readOverwinter WholeNotes := by
  intro input body rest ok
  simp only [readOverwinter, bindOk, pureOk] at ok
  obtain ⟨_, _, _, _, _, _, _, _, _, _, _, _, _, _, _, rfl, _⟩ := ok
  exact bareWhole rfl rfl

theorem saplingWhole : Gives readSapling WholeNotes := by
  intro input body rest ok
  unfold readSapling at ok
  simp only [bindOk] at ok
  obtain ⟨_, _, _, _, _, _, _, _, _, _, _, _, _, _, _, _, _, _, outputs, _, taken, _, _, _, ok⟩ :=
    ok
  have whole := vectorGives provedOutputWhole taken
  split at ok
  · simp only [bindOk, pureOk] at ok
    obtain ⟨_, _, _, rfl, _⟩ := ok
    exact ⟨whole, by simp [OrchardPart.empty]⟩
  · obtain ⟨rfl, _⟩ := pureOk.mp ok
    exact ⟨whole, by simp [OrchardPart.empty]⟩

theorem unifiedWhole (branch : UInt32) : Gives (readUnified branch) WholeNotes := by
  intro input body rest ok
  simp only [readUnified, bindOk, pureOk] at ok
  obtain ⟨_, _, _, _, _, _, _, _, _, _, _, _, sapling, _, notes, orchard, _, actions, rfl, _⟩ := ok
  exact ⟨unifiedSaplingWhole notes, unifiedOrchardWhole branch actions⟩

theorem readWhole : Gives TxBody.read WholeNotes := by
  intro input body rest ok
  simp only [TxBody.read, bindOk] at ok
  obtain ⟨format, middle, _, ok⟩ := ok
  cases format with
  | sprout version => exact sproutWhole version ok
  | overwinter => exact overwinterWhole ok
  | sapling => exact saplingWhole ok
  | unified branch => exact unifiedWhole branch ok

end TxBody

end WalletProxy
