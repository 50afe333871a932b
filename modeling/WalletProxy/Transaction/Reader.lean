import WalletProxy.Transaction.Digest
import WalletProxy.Curve.Jubjub
import WalletProxy.Curve.Pallas

/-! Reading transactions of every layout, from the left to the right, with each field checked as
soon as it is read. -/
namespace WalletProxy
open Reader

namespace TxFormat

def branches : List UInt32 :=
  [0, 0x5ba81b19, 0x76b809bb, 0x2bb40e60, 0xf5b9230b, 0xe9ff75a6, 0xc2d6d0b4, 0xc8e71055,
    0x4dec4df0, 0x5437f330]

/-- The branch from which on an Orchard proof must have the length its actions call for. -/
def strictProofBranch : UInt32 := 0x5437f330

def readBranch : Reader TxFormat := do
  let branch ← word
  require (branches.contains branch) (.invalidBranch branch)
  return .unified branch

/-- The layout named by the version, whose top bit says that a version group follows. -/
def read : Reader TxFormat := do
  let header ← word
  let version := header &&& 0x7fffffff
  if header = version then
    require (version ≠ 0) .unknownFormat
    return .sprout version.toNat
  else
    let group ← word
    if version = 3 ∧ group = 0x03C48270 then return .overwinter
    else if version = 4 ∧ group = 0x892F2085 then return .sapling
    else if version = 5 ∧ group = 0x26A7270A then readBranch
    else throw .unknownFormat

end TxFormat

def maxMoney : Nat := 2100000000000000

def TxInput.read : Reader TxInput := do
  let prevTx ← bytes32
  let prevIndex ← word
  let script ← CompactSize.bytes
  let sequence ← word
  return { prevTx, prevIndex, script, sequence }

def TxOutput.read : Reader TxOutput := do
  let value ← number 8
  require (value ≤ maxMoney) .valueOutOfRange
  let script ← CompactSize.bytes
  return { value, script }

namespace TxBody

def readBalance : Reader Int64 := do
  let balance ← signed
  require (balance.toInt.natAbs ≤ maxMoney) .valueBalanceOutOfRange
  return balance

def skip (count : Nat) : Reader Unit := do let _ ← take count

def checked (isValid : Bytes32 → Bool) (fault : ReadError) : Reader Bytes32 := do
  let word ← bytes32
  require (isValid word) fault
  return word

def joinSplit (proofLength : Nat) : Reader Unit := do
  let old ← number 8
  require (old ≤ maxMoney) .oldPublicValueOutOfRange
  let new ← number 8
  require (new ≤ maxMoney) .newPublicValueOutOfRange
  skip (9 * 32 + proofLength + 2 * 601)

def joinSplits (proofLength : Nat) : Reader Unit := do
  let payments ← CompactSize.vector (joinSplit proofLength)
  if payments.isEmpty then pure () else skip (32 + 64)

def saplingCommitment : Reader Bytes32 := checked Jubjub.isPointOfLargeOrder .saplingCommitment
def saplingKey : Reader Bytes32 := checked Jubjub.isPoint .saplingKey
def saplingAnchor : Reader Bytes32 := checked Jubjub.isScalar .saplingAnchor
def saplingNote : Reader Bytes32 := checked Jubjub.isScalar .saplingNote

def saplingSpend : Reader SaplingSpend := do
  let commitment ← saplingCommitment
  let anchor ← saplingAnchor
  let nullifier ← bytes32
  let key ← saplingKey
  skip (192 + 64)
  return { commitment, anchor, nullifier, key }

def saplingOutput : Reader SaplingOutput := do
  let commitment ← saplingCommitment
  let note ← saplingNote
  let ephemeralKey ← bytes32
  let ciphertext ← take 580
  let outCiphertext ← take 80
  return { commitment, note, ephemeralKey, ciphertext, outCiphertext }

def saplingOutputWithProof : Reader SaplingOutput := do
  let output ← saplingOutput
  skip 192
  return output

/-- A spend in the unified layout: its anchor stands once, after all spends and outputs. -/
def unanchoredSpend : Reader SaplingSpend := do
  let commitment ← saplingCommitment
  let nullifier ← bytes32
  let key ← saplingKey
  return { commitment, anchor := Bytes32.zero, nullifier, key }

def unifiedSapling : Reader SaplingPart := do
  let spends ← CompactSize.vector unanchoredSpend
  let outputs ← CompactSize.vector saplingOutput
  if spends.isEmpty && outputs.isEmpty then return .empty
  let balance ← readBalance
  let anchor ← if spends.isEmpty then pure Bytes32.zero else saplingAnchor
  skip ((192 + 64) * spends.length + 192 * outputs.length + 64)
  return { spends := spends.map fun spend => { spend with anchor }, outputs, balance }

def orchardAction : Reader OrchardAction := do
  let commitment ← checked Pallas.isPoint .orchardCommitment
  let nullifier ← checked Pallas.isBase .orchardNullifier
  let key ← checked Pallas.isPoint .orchardKey
  let note ← checked Pallas.isBase .orchardNote
  let ephemeralKey ← bytes32
  let ciphertext ← take 580
  let outCiphertext ← take 80
  require (!Pallas.isIdentity key) .orchardIdentityKey
  require (Pallas.isPoint ephemeralKey && !Pallas.isIdentity ephemeralKey) .orchardEphemeralKey
  return { commitment, nullifier, key, note, ephemeralKey, ciphertext, outCiphertext }

def orchardProofLength (actions : Nat) : Nat := 2720 + 2272 * actions

def unifiedOrchard (branch : UInt32) : Reader OrchardPart := do
  let actions ← CompactSize.vector orchardAction
  if actions.isEmpty then return .empty
  let flags ← byte
  require (flags < 4) .orchardFlags
  let balance ← readBalance
  let anchor ← checked Pallas.isBase .orchardAnchor
  let proof ← CompactSize.bytes
  skip (64 * actions.length + 64)
  require (branch ≠ TxFormat.strictProofBranch || proof.length = orchardProofLength actions.length)
    (.orchardProofLength proof.length (orchardProofLength actions.length))
  return { actions, flags, balance, anchor }

def readUnified (branch : UInt32) : Reader TxBody := do
  let lockTime ← word
  let expiry ← word
  let inputs ← CompactSize.vector TxInput.read
  let outputs ← CompactSize.vector TxOutput.read
  let sapling ← unifiedSapling
  let orchard ← unifiedOrchard branch
  return { format := .unified branch, inputs, outputs, lockTime, expiry, sapling, orchard }

def readSprout (version : Nat) : Reader TxBody := do
  let inputs ← CompactSize.vector TxInput.read
  let outputs ← CompactSize.vector TxOutput.read
  let lockTime ← word
  if 2 ≤ version then joinSplits 296
  return { format := .sprout version, inputs, outputs, lockTime, expiry := 0,
           sapling := .empty, orchard := .empty }

def readOverwinter : Reader TxBody := do
  let inputs ← CompactSize.vector TxInput.read
  let outputs ← CompactSize.vector TxOutput.read
  let lockTime ← word
  let expiry ← word
  joinSplits 296
  return { format := .overwinter, inputs, outputs, lockTime, expiry,
           sapling := .empty, orchard := .empty }

def readSapling : Reader TxBody := do
  let inputs ← CompactSize.vector TxInput.read
  let outputs ← CompactSize.vector TxOutput.read
  let lockTime ← word
  let expiry ← word
  let balance ← readBalance
  let shieldedSpends ← CompactSize.vector saplingSpend
  let shieldedOutputs ← CompactSize.vector saplingOutputWithProof
  joinSplits 192
  let sapling : SaplingPart := ⟨shieldedSpends, shieldedOutputs, balance⟩
  if !sapling.isEmpty then skip 64
  return { format := .sapling, inputs, outputs, lockTime, expiry, sapling, orchard := .empty }

def read : Reader TxBody := do
  match ← TxFormat.read with
  | .sprout version => readSprout version
  | .overwinter => readOverwinter
  | .sapling => readSapling
  | .unified branch => readUnified branch

end TxBody

namespace Transaction

def read : Reader Transaction := do
  let (body, raw) ← consumed TxBody.read
  return { body, id := body.id raw }

def ofBytes (bytes : Bytes) : Except ReadError Transaction := whole read bytes

end Transaction

end WalletProxy
