import WalletProxy.Sim.Filler
import WalletProxy.Sim.Segment

/-! The simulated chain, which a test drives in place of a node. Blocks and transactions are staged
first; a commit merges them into the active chain and moves the tip. A commit that fails changes
nothing but the staging area, which it empties, and so does one that has no result because the
program ends at an overflow. -/
namespace WalletProxy
open Unsigned (Overflow)

inductive SimError where
  | notReset
  | invalidBranch (text : String)
  | invalidName (text : String)
  | invalidHeight (height : Int)
  | block (fault : BlockError)
  | transaction (fault : ReadError)
  | hex (fault : Hex.Error)
  | outside (height start stop : Nat)
  | fetch (detail : String)
  | sourceNotFound (text : String)
  deriving DecidableEq, Repr

def SimError.message : SimError → String
  | notReset => "please call Reset first"
  | invalidBranch text => s!"invalid branch id. {text}"
  | invalidName text => s!"invalid chain name. {text}"
  | invalidHeight height => s!"invalid height. {height}"
  | block fault => s!"block error. {fault.message}"
  | transaction fault => s!"invalid transaction. {fault.message}"
  | hex fault => s!"hex decode error. {fault.message}"
  | outside height start stop =>
      s!"transaction height {height} is outside the active chain [{start}, {stop})"
  | fetch detail => s!"fetch error. {detail}"
  | sourceNotFound text => text

def SimError.ofFault : Segment.Fault → Option SimError
  | .overflow => none
  | .outside height start stop => some (.outside height start stop)
  | .block fault => some (.block fault)

def heightOfInt (height : Int) : Except SimError Nat :=
  if height < 0 then .error (.invalidHeight height) else .ok height.toNat

structure SimChain where
  isReset : Bool
  activation : Nat
  branch : String
  name : String
  /-- The tip shown to callers; there is none before the first commit. -/
  latest : Option Nat
  active : Segment
  stagedBlocks : List Block
  stagedTxs : List (Nat × BlockTx)
  incoming : List Bytes
  deriving DecidableEq

namespace SimChain

def fresh : SimChain := ⟨false, 0, "", "", none, .empty, [], [], []⟩

def started (activation : Nat) (branch name : String) : SimChain :=
  { fresh with isReset := true, activation, branch, name }

def isBranch (text : String) : Bool := !text.isEmpty && text.toList.all Hex.isDigit

def isName (text : String) : Bool := !text.isEmpty && text.toList.all Char.isAlphanum

def reset (chain : SimChain) (activation : Nat) (branch name : String) :
    Except SimError Unit × SimChain :=
  if !isBranch branch then (.error (.invalidBranch branch), chain)
  else if !isName name then (.error (.invalidName name), chain)
  else (.ok (), started activation branch name)

def stageBlock (chain : SimChain) (bytes : Bytes) : Except SimError Unit × SimChain :=
  if !chain.isReset then (.error .notReset, chain)
  else match Block.ofBytes bytes with
    | .error fault => (.error (.block fault), chain)
    | .ok block => (.ok (), { chain with stagedBlocks := chain.stagedBlocks ++ [block] })

def stageBlocks (chain : SimChain) : List Bytes → Except SimError Unit × SimChain
  | [] => (.ok (), chain)
  | bytes :: rest =>
      match chain.stageBlock bytes with
      | (.error fault, chain) => (.error fault, chain)
      | (.ok (), chain) => chain.stageBlocks rest

def stageFiller (overflow : Overflow) (chain : SimChain) (start : Nat) (nonce : Int32)
    (count : Nat) : Option (Except SimError Unit) × SimChain :=
  if !chain.isReset then (some (.error .notReset), chain)
  else match Filler.blocks overflow start nonce count with
    | none => (none, chain)
    | some (.error fault) => (some (.error (.block fault)), chain)
    | some (.ok blocks) =>
        (some (.ok ()), { chain with stagedBlocks := chain.stagedBlocks ++ blocks })

/-- Stages a transaction for the block at a height; a commit finds out whether there is one. -/
def stageTx (chain : SimChain) (height : Nat) (bytes : Bytes) : Except SimError Unit × SimChain :=
  if !chain.isReset then (.error .notReset, chain)
  else match BlockTx.ofBytes bytes with
    | .error fault => (.error (.transaction fault), chain)
    | .ok tx => (.ok (), { chain with stagedTxs := chain.stagedTxs ++ [(height, tx)] })

def stageTxs (chain : SimChain) : List (Nat × Bytes) → Except SimError Unit × SimChain
  | [] => (.ok (), chain)
  | (height, bytes) :: rest =>
      match chain.stageTx height bytes with
      | (.error fault, chain) => (.error fault, chain)
      | (.ok (), chain) => chain.stageTxs rest

def merged (overflow : Overflow) (chain : SimChain) : Except Segment.Fault Segment :=
  chain.active.placeAll overflow chain.stagedBlocks

def filled (overflow : Overflow) (chain : SimChain) : Except Segment.Fault Segment := do
  (← chain.merged overflow).injectAll overflow chain.stagedTxs

def commit (overflow : Overflow) (chain : SimChain) (height : Nat) :
    Option (Except SimError Unit) × SimChain :=
  if !chain.isReset then (some (.error .notReset), chain)
  else
    let unstaged := { chain with stagedBlocks := [], stagedTxs := [] }
    match chain.filled overflow with
    | .error fault => ((SimError.ofFault fault).map .error, unstaged)
    | .ok segment =>
        (some (.ok ()), { unstaged with active := segment.relink, latest := some height })

def recordIncoming (chain : SimChain) (bytes : Bytes) : Except SimError Bytes32 × SimChain :=
  if !chain.isReset then (.error .notReset, chain)
  else match BlockTx.ofBytes bytes with
    | .error fault => (.error (.transaction fault), chain)
    | .ok tx => (.ok tx.id, { chain with incoming := chain.incoming ++ [tx.data] })

def pushIncoming (chain : SimChain) (bytes : Bytes) : SimChain :=
  { chain with incoming := chain.incoming ++ [bytes] }

def clearIncoming (chain : SimChain) : SimChain := { chain with incoming := [] }

def block? (chain : SimChain) (height : Nat) : Option Block := chain.active.block? height

end SimChain

end WalletProxy
