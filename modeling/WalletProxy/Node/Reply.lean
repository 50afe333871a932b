import WalletProxy.Json.Basic

/-! The replies of a node, read from JSON. A reply with named fields may also come as a list of its
fields in their order. Fields that are not known are passed over; a field that may be missing must
have its type where it is there. -/
namespace WalletProxy

namespace Json

def fields? (names : List String) : Json → Option (List (Option Json))
  | object members => some (names.map fun name => (object members).get? name)
  | list items =>
      if items.length ≤ names.length then
        some (items.map some ++ List.replicate (names.length - items.length) none)
      else none
  | _ => none

def orElse (missing : α) (read : Json → Option α) : Option Json → Option α
  | none => some missing
  | some json => read json

end Json

structure ConsensusBranches where
  chaintip : String
  nextblock : String
  deriving DecidableEq, Repr

structure ChainInfo where
  chain : String
  upgrades : List (String × Nat)
  blocks : Int
  headers : Int
  consensus : ConsensusBranches
  deriving DecidableEq, Repr

structure TxReply where
  hex : String
  height : Int
  deriving DecidableEq, Repr

structure UtxoReply where
  address : String
  txid : String
  outputIndex : Int
  script : String
  satoshis : Nat
  height : Int
  deriving DecidableEq, Repr

/-- The tree of one shielded pool: the tree itself, or an earlier block with the same tree. -/
structure PoolTree where
  skipHash : String
  finalState : String
  deriving DecidableEq, Repr

structure TreeReply where
  hash : String
  height : Int
  time : UInt32
  sapling : PoolTree
  orchard : PoolTree
  deriving DecidableEq, Repr

namespace ConsensusBranches

def empty : ConsensusBranches := ⟨"", ""⟩

def ofJson? (json : Json) : Option ConsensusBranches := do
  match ← json.fields? ["chaintip", "nextblock"] with
  | [some chaintip, some nextblock] =>
      return { chaintip := ← chaintip.text?, nextblock := ← nextblock.text? }
  | _ => none

end ConsensusBranches

namespace ChainInfo

def saplingUpgrade : String := "76b809bb"

def activationOfJson? (json : Json) : Option Nat := do
  match ← json.fields? ["activationheight"] with
  | [some height] => height.nat64?
  | _ => none

def upgradesOfJson? : Json → Option (List (String × Nat))
  | .object members => members.mapM fun (id, json) => (activationOfJson? json).map (id, ·)
  | _ => none

def ofJson? (json : Json) : Option ChainInfo := do
  match ← json.fields? ["chain", "upgrades", "blocks", "headers", "consensus"] with
  | [some chain, upgrades, blocks, headers, consensus] =>
      return {
        chain := ← chain.text?
        upgrades := ← Json.orElse [] upgradesOfJson? upgrades
        blocks := ← Json.orElse 0 Json.int64? blocks
        headers := ← Json.orElse 0 Json.int64? headers
        consensus := ← Json.orElse .empty ConsensusBranches.ofJson? consensus }
  | _ => none

def toJson (info : ChainInfo) : Json :=
  .ofMembers [
    ("chain", .text info.chain),
    ("upgrades", .ofMembers (info.upgrades.map fun (id, height) =>
      (id, .ofMembers [("activationheight", .nat height)]))),
    ("blocks", .int info.blocks),
    ("headers", .int info.headers),
    ("consensus", .ofMembers [("chaintip", .text info.consensus.chaintip),
      ("nextblock", .text info.consensus.nextblock)])]

/-- The height at which Sapling became active, or 0 where it is not told. -/
def saplingActivation (info : ChainInfo) : Nat :=
  ((info.upgrades.find? (·.1 = saplingUpgrade)).map (·.2)).getD 0

end ChainInfo

namespace TxReply

def ofJson? (json : Json) : Option TxReply := do
  match ← json.fields? ["hex", "height"] with
  | [some hex, height] =>
      return { hex := ← hex.text?, height := ← Json.orElse 0 Json.int64? height }
  | _ => none

def toJson (reply : TxReply) : Json :=
  .ofMembers [("hex", .text reply.hex), ("height", .int reply.height)]

def hexOfJson? (json : Json) : Option String :=
  match json with
  | .text hex => some hex
  | _ => (ofJson? json).map TxReply.hex

end TxReply

def balanceOfJson? (json : Json) : Option Int := do
  match ← json.fields? ["balance"] with
  | [some balance] => balance.int64?
  | _ => none

def UtxoReply.ofJson? (json : Json) : Option UtxoReply := do
  match ← json.fields? ["address", "txid", "outputIndex", "script", "satoshis", "height"] with
  | [some address, some txid, some outputIndex, some script, some satoshis, some height] =>
      return {
        address := ← address.text?
        txid := ← txid.text?
        outputIndex := ← outputIndex.int64?
        script := ← script.text?
        satoshis := ← satoshis.nat64?
        height := ← height.int64? }
  | _ => none

namespace PoolTree

def empty : PoolTree := ⟨"", ""⟩

def stateOfJson? (json : Json) : Option String := do
  match ← json.fields? ["finalState"] with
  | [state] => Json.orElse "" Json.text? state
  | _ => none

def ofJson? (json : Json) : Option PoolTree := do
  match ← json.fields? ["skipHash", "commitments"] with
  | [skipHash, commitments] =>
      return {
        skipHash := ← Json.orElse "" Json.text? skipHash
        finalState := ← Json.orElse "" stateOfJson? commitments }
  | _ => none

end PoolTree

def TreeReply.ofJson? (json : Json) : Option TreeReply := do
  match ← json.fields? ["hash", "height", "time", "sapling", "orchard"] with
  | [some hash, some height, some time, sapling, orchard] =>
      return {
        hash := ← hash.text?
        height := ← height.int64?
        time := UInt32.ofNat (← time.nat32?)
        sapling := ← Json.orElse .empty PoolTree.ofJson? sapling
        orchard := ← Json.orElse .empty PoolTree.ofJson? orchard }
  | _ => none

end WalletProxy
