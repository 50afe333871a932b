import WalletProxy.Transaction.Basic
import WalletProxy.Digest.Sha256
import WalletProxy.Digest.Blake2b

/-! The names of transactions. An old one is named by the double SHA-256 of its bytes. One in the
unified layout is named by a tree of personalised BLAKE2b digests of its parts, so that its
signatures and proofs do not change the name. -/
namespace WalletProxy

namespace TxDigest

def node (person : String) (content : Bytes) : Bytes := (blake2b (Bytes.ofText person) content).val

def part (person : String) (isEmpty : Bool) (content : Bytes) : Bytes :=
  node person (if isEmpty then [] else content)

def word (value : UInt32) : Bytes := Bytes.ofNat 4 value.toNat

def amount (value : Int64) : Bytes := Bytes.ofNat 8 value.toUInt64.toNat

def outPoint (input : TxInput) : Bytes := input.prevTx.val ++ word input.prevIndex

def output (output : TxOutput) : Bytes :=
  Bytes.ofNat 8 output.value ++ CompactSize.write output.script.length ++ output.script

def header (branch : UInt32) (body : TxBody) : Bytes :=
  node "ZTxIdHeadersHash"
    (word 0x80000005 ++ word 0x26A7270A ++ word branch ++ word body.lockTime ++ word body.expiry)

def transparent (body : TxBody) : Bytes :=
  part "ZTxIdTranspaHash" (body.inputs.isEmpty && body.outputs.isEmpty)
    (node "ZTxIdPrevoutHash" (body.inputs.flatMap outPoint) ++
      node "ZTxIdSequencHash" (body.inputs.flatMap fun input => word input.sequence) ++
      node "ZTxIdOutputsHash" (body.outputs.flatMap output))

def compactLength : Nat := 52
def memoEnd : Nat := 564

def saplingSpends (spends : List SaplingSpend) : Bytes :=
  part "ZTxIdSSpendsHash" spends.isEmpty
    (node "ZTxIdSSpendCHash" (spends.flatMap fun spend => spend.nullifier.val) ++
      node "ZTxIdSSpendNHash" (spends.flatMap fun spend =>
        spend.commitment.val ++ spend.anchor.val ++ spend.key.val))

def saplingOutputs (outputs : List SaplingOutput) : Bytes :=
  part "ZTxIdSOutputHash" outputs.isEmpty
    (node "ZTxIdSOutC__Hash" (outputs.flatMap fun output =>
        output.note.val ++ output.ephemeralKey.val ++ output.ciphertext.take compactLength) ++
      node "ZTxIdSOutM__Hash" (outputs.flatMap fun output =>
        (output.ciphertext.take memoEnd).drop compactLength) ++
      node "ZTxIdSOutN__Hash" (outputs.flatMap fun output =>
        output.commitment.val ++ output.ciphertext.drop memoEnd ++ output.outCiphertext))

def sapling (bundle : SaplingPart) : Bytes :=
  part "ZTxIdSaplingHash" bundle.isEmpty
    (saplingSpends bundle.spends ++ saplingOutputs bundle.outputs ++ amount bundle.balance)

def orchard (bundle : OrchardPart) : Bytes :=
  part "ZTxIdOrchardHash" bundle.isEmpty
    (node "ZTxIdOrcActCHash" (bundle.actions.flatMap fun action =>
        action.nullifier.val ++ action.note.val ++ action.ephemeralKey.val ++
          action.ciphertext.take compactLength) ++
      node "ZTxIdOrcActMHash" (bundle.actions.flatMap fun action =>
        (action.ciphertext.take memoEnd).drop compactLength) ++
      node "ZTxIdOrcActNHash" (bundle.actions.flatMap fun action =>
        action.commitment.val ++ action.key.val ++ action.ciphertext.drop memoEnd ++
          action.outCiphertext) ++
      [bundle.flags] ++ amount bundle.balance ++ bundle.anchor.val)

def unified (branch : UInt32) (body : TxBody) : Bytes32 :=
  blake2b (Bytes.ofText "ZcashTxHash_" ++ word branch)
    (header branch body ++ transparent body ++ sapling body.sapling ++ orchard body.orchard)

end TxDigest

def TxBody.id (body : TxBody) (raw : Bytes) : Bytes32 :=
  match body.format with
  | .unified branch => TxDigest.unified branch body
  | _ => doubleSha256 raw

end WalletProxy
