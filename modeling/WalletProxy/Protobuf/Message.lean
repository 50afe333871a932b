import WalletProxy.Protobuf.Field
import WalletProxy.Wallet.Message

/-! The written form of each message. Where a field comes more than once, the last one counts, or
all do if it is a list; unknown fields are passed over. -/
namespace WalletProxy.Protobuf

structure Format (μ : Type) where
  write : μ → Bytes
  default : μ
  update : (depth : Nat) → μ → Nat → Payload → Option μ

namespace Format

def readAt (format : Format μ) (depth : Nat) (bytes : Bytes) : Option μ :=
  readWith format.default (format.update depth) depth bytes

def read (format : Format μ) (bytes : Bytes) : Option μ := format.readAt maxDepth bytes

def ofPayload? (format : Format μ) (depth : Nat) (payload : Payload) : Option μ := do
  format.readAt (depth - 1) (← payload.bytes?)

end Format

def compactSpend : Format CompactSpend where
  write m := Field.ofBytes 1 m.nullifier
  default := ⟨[]⟩
  update _ m number payload := do
    match number with
    | 1 => return { m with nullifier := ← payload.bytes? }
    | _ => return m

def compactOutput : Format CompactOutput where
  write m :=
    Field.ofBytes 1 m.note ++ Field.ofBytes 2 m.ephemeralKey ++ Field.ofBytes 3 m.ciphertext
  default := ⟨[], [], []⟩
  update _ m number payload := do
    match number with
    | 1 => return { m with note := ← payload.bytes? }
    | 2 => return { m with ephemeralKey := ← payload.bytes? }
    | 3 => return { m with ciphertext := ← payload.bytes? }
    | _ => return m

def compactAction : Format CompactAction where
  write m :=
    Field.ofBytes 1 m.nullifier ++ Field.ofBytes 2 m.note ++ Field.ofBytes 3 m.ephemeralKey ++
      Field.ofBytes 4 m.ciphertext
  default := ⟨[], [], [], []⟩
  update _ m number payload := do
    match number with
    | 1 => return { m with nullifier := ← payload.bytes? }
    | 2 => return { m with note := ← payload.bytes? }
    | 3 => return { m with ephemeralKey := ← payload.bytes? }
    | 4 => return { m with ciphertext := ← payload.bytes? }
    | _ => return m

def compactTx : Format CompactTx where
  write m :=
    Field.ofNat 1 m.index ++ Field.ofBytes 2 m.hash ++ Field.ofNat 3 m.fee.toNat ++
      m.spends.flatMap (fun spend => Field.ofMessage 4 (compactSpend.write spend)) ++
      m.outputs.flatMap (fun output => Field.ofMessage 5 (compactOutput.write output)) ++
      m.actions.flatMap (fun action => Field.ofMessage 6 (compactAction.write action))
  default := ⟨0, [], 0, [], [], []⟩
  update depth m number payload := do
    match number with
    | 1 => return { m with index := ← payload.nat? }
    | 2 => return { m with hash := ← payload.bytes? }
    | 3 => return { m with fee := ← payload.word32? }
    | 4 => return { m with spends := m.spends ++ [← compactSpend.ofPayload? depth payload] }
    | 5 => return { m with outputs := m.outputs ++ [← compactOutput.ofPayload? depth payload] }
    | 6 => return { m with actions := m.actions ++ [← compactAction.ofPayload? depth payload] }
    | _ => return m

def compactBlock : Format CompactBlock where
  write m :=
    Field.ofNat 1 m.protoVersion.toNat ++ Field.ofNat 2 m.height ++ Field.ofBytes 3 m.hash ++
      Field.ofBytes 4 m.prevHash ++ Field.ofNat 5 m.time.toNat ++ Field.ofBytes 6 m.header ++
      m.transactions.flatMap (fun tx => Field.ofMessage 7 (compactTx.write tx))
  default := ⟨0, 0, [], [], 0, [], []⟩
  update depth m number payload := do
    match number with
    | 1 => return { m with protoVersion := ← payload.word32? }
    | 2 => return { m with height := ← payload.nat? }
    | 3 => return { m with hash := ← payload.bytes? }
    | 4 => return { m with prevHash := ← payload.bytes? }
    | 5 => return { m with time := ← payload.word32? }
    | 6 => return { m with header := ← payload.bytes? }
    | 7 =>
        let tx ← compactTx.ofPayload? depth payload
        return { m with transactions := m.transactions ++ [tx] }
    | _ => return m

namespace Payload

def int64? (payload : Payload) : Option Int64 :=
  payload.nat?.map fun value => (UInt64.ofNat value).toInt64

def int32? (payload : Payload) : Option Int32 := payload.word32?.map UInt32.toInt32

def bool? (payload : Payload) : Option Bool := payload.nat?.map (· ≠ 0)

end Payload

open Wallet

def blockId : Format BlockId where
  write m := Field.ofNat 1 m.height ++ Field.ofBytes 2 m.hash
  default := ⟨0, []⟩
  update _ m number payload := do
    match number with
    | 1 => return { m with height := ← payload.nat? }
    | 2 => return { m with hash := ← payload.bytes? }
    | _ => return m

def rawTx : Format RawTx where
  write m := Field.ofBytes 1 m.data ++ Field.ofNat 2 m.height
  default := ⟨[], 0⟩
  update _ m number payload := do
    match number with
    | 1 => return { m with data := ← payload.bytes? }
    | 2 => return { m with height := ← payload.nat? }
    | _ => return m

def sendResponse : Format SendResponse where
  write m := Field.ofInt32 1 m.code ++ Field.ofText 2 m.message
  default := ⟨0, ""⟩
  update _ m number payload := do
    match number with
    | 1 => return { m with code := ← payload.int32? }
    | 2 => return { m with message := ← payload.text? }
    | _ => return m

def balance : Format Balance where
  write m := Field.ofInt64 1 m.value
  default := ⟨0⟩
  update _ m number payload := do
    match number with
    | 1 => return { m with value := ← payload.int64? }
    | _ => return m

def treeState : Format TreeState where
  write m :=
    Field.ofText 1 m.network ++ Field.ofNat 2 m.height ++ Field.ofText 3 m.hash ++
      Field.ofNat 4 m.time.toNat ++ Field.ofText 5 m.saplingTree ++ Field.ofText 6 m.orchardTree
  default := ⟨"", 0, "", 0, "", ""⟩
  update _ m number payload := do
    match number with
    | 1 => return { m with network := ← payload.text? }
    | 2 => return { m with height := ← payload.nat? }
    | 3 => return { m with hash := ← payload.text? }
    | 4 => return { m with time := ← payload.word32? }
    | 5 => return { m with saplingTree := ← payload.text? }
    | 6 => return { m with orchardTree := ← payload.text? }
    | _ => return m

def utxo : Format Utxo where
  write m :=
    Field.ofBytes 1 m.txid ++ Field.ofInt32 2 m.index ++ Field.ofBytes 3 m.script ++
      Field.ofInt64 4 m.value ++ Field.ofNat 5 m.height ++ Field.ofText 6 m.address
  default := ⟨"", [], 0, [], 0, 0⟩
  update _ m number payload := do
    match number with
    | 1 => return { m with txid := ← payload.bytes? }
    | 2 => return { m with index := ← payload.int32? }
    | 3 => return { m with script := ← payload.bytes? }
    | 4 => return { m with value := ← payload.int64? }
    | 5 => return { m with height := ← payload.nat? }
    | 6 => return { m with address := ← payload.text? }
    | _ => return m

def serverInfo : Format ServerInfo where
  write m :=
    Field.ofText 1 m.version ++ Field.ofText 2 m.vendor ++ Field.ofBool 3 m.taddrSupport ++
      Field.ofText 4 m.chainName ++ Field.ofNat 5 m.saplingActivation ++
      Field.ofText 6 m.consensusBranch ++ Field.ofNat 7 m.blockHeight ++
      Field.ofText 8 m.gitCommit ++ Field.ofText 9 m.branch ++ Field.ofText 10 m.buildDate ++
      Field.ofText 11 m.buildUser ++ Field.ofNat 12 m.estimatedHeight ++
      Field.ofText 13 m.nodeBuild ++ Field.ofText 14 m.nodeSubversion
  default := ⟨"", "", false, "", 0, "", 0, "", "", "", "", 0, "", ""⟩
  update _ m number payload := do
    match number with
    | 1 => return { m with version := ← payload.text? }
    | 2 => return { m with vendor := ← payload.text? }
    | 3 => return { m with taddrSupport := ← payload.bool? }
    | 4 => return { m with chainName := ← payload.text? }
    | 5 => return { m with saplingActivation := ← payload.nat? }
    | 6 => return { m with consensusBranch := ← payload.text? }
    | 7 => return { m with blockHeight := ← payload.nat? }
    | 8 => return { m with gitCommit := ← payload.text? }
    | 9 => return { m with branch := ← payload.text? }
    | 10 => return { m with buildDate := ← payload.text? }
    | 11 => return { m with buildUser := ← payload.text? }
    | 12 => return { m with estimatedHeight := ← payload.nat? }
    | 13 => return { m with nodeBuild := ← payload.text? }
    | 14 => return { m with nodeSubversion := ← payload.text? }
    | _ => return m

end WalletProxy.Protobuf
