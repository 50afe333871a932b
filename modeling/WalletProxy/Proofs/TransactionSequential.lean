import WalletProxy.Proofs.CompactSizeExact
import WalletProxy.Block.Basic

/-! Transactions are read from the left to the right in every layout: what is read depends on the
bytes that are taken and on no byte behind them. So a transaction of a block is known from its own
bytes alone. -/
namespace WalletProxy
open Reader

namespace CompactSize

instance : Sequential CompactSize.read := exactSequential fun _ _ _ => readOk

instance : Sequential CompactSize.bytes := by
  unfold CompactSize.bytes
  infer_instance

instance {α : Type} (item : Reader α) [Sequential item] : Sequential (CompactSize.vector item) := by
  unfold CompactSize.vector many
  infer_instance

end CompactSize

instance : Sequential TxInput.read := by
  unfold TxInput.read
  infer_instance

instance : Sequential TxOutput.read := by
  unfold TxOutput.read
  infer_instance

namespace TxFormat

instance : Sequential TxFormat.read := by
  unfold TxFormat.read readBranch
  infer_instance

end TxFormat

namespace TxBody

instance (count : Nat) : Sequential (skip count) := by
  unfold skip
  infer_instance

instance : Sequential readBalance := by
  unfold readBalance
  infer_instance

instance (isValid : Bytes32 → Bool) (fault : ReadError) : Sequential (checked isValid fault) := by
  unfold checked
  infer_instance

instance (proofLength : Nat) : Sequential (joinSplits proofLength) := by
  unfold joinSplits joinSplit
  infer_instance

instance : Sequential saplingSpend := by
  unfold saplingSpend saplingCommitment saplingAnchor saplingKey
  infer_instance

instance : Sequential saplingOutput := by
  unfold saplingOutput saplingCommitment saplingNote
  infer_instance

instance : Sequential saplingOutputWithProof := by
  unfold saplingOutputWithProof
  infer_instance

instance : Sequential unifiedSapling := by
  unfold unifiedSapling unanchoredSpend saplingCommitment saplingAnchor saplingKey
  infer_instance

instance : Sequential orchardAction := by
  unfold orchardAction
  infer_instance

instance (branch : UInt32) : Sequential (unifiedOrchard branch) := by
  unfold unifiedOrchard
  infer_instance

instance (branch : UInt32) : Sequential (readUnified branch) := by
  unfold readUnified
  infer_instance

instance (version : Nat) : Sequential (readSprout version) := by
  unfold readSprout
  infer_instance

instance : Sequential readOverwinter := by
  unfold readOverwinter
  infer_instance

instance : Sequential readSapling := by
  unfold readSapling
  infer_instance

instance : Sequential TxBody.read := by
  unfold TxBody.read
  have layouts : ∀ format : TxFormat, Sequential (match format with
      | .sprout version => readSprout version
      | .overwinter => readOverwinter
      | .sapling => readSapling
      | .unified branch => readUnified branch) := by
    intro format
    cases format <;> infer_instance
  infer_instance

end TxBody

instance : Sequential Transaction.read := by
  unfold Transaction.read
  infer_instance

end WalletProxy
