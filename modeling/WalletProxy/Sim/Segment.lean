import WalletProxy.Block.Basic
import WalletProxy.Unsigned

/-! A run of blocks at successive heights, and the two ways it changes: a block is put at its
height, and a transaction is put into the block at a height. Both compare the height with the end of
the run, which is added up in 64 bits. -/
namespace WalletProxy
open Unsigned (Overflow)

structure Segment where
  start : Nat
  blocks : List Block
  deriving DecidableEq

namespace Segment

def empty : Segment := ⟨0, []⟩

def stop (segment : Segment) : Nat := segment.start + segment.blocks.length

def block? (segment : Segment) (height : Nat) : Option Block :=
  if segment.start ≤ height then segment.blocks[height - segment.start]? else none

/-- Why a segment does not change. At an overflow the program has ended. -/
inductive Fault where
  | overflow
  | outside (height start stop : Nat)
  | block (fault : BlockError)
  deriving DecidableEq, Repr

def stop64 (overflow : Overflow) (segment : Segment) : Except Fault Nat :=
  match overflow.in64 segment.stop with
  | none => .error .overflow
  | some stop => .ok stop

/-- The blocks below a height, or none at all if no block can follow them at that height. -/
def below (segment : Segment) (stop height : Nat) : List Block :=
  if segment.start ≤ height ∧ height ≤ stop then
    segment.blocks.take (height - segment.start)
  else []

def placeUpTo (segment : Segment) (stop : Nat) (block : Block) : Segment :=
  let kept := segment.below stop block.height
  match kept.getLast? with
  | none => ⟨block.height, [block]⟩
  | some tip => ⟨segment.start, kept ++ [block.withPrev tip.hash]⟩

def place (overflow : Overflow) (segment : Segment) (block : Block) : Except Fault Segment := do
  return segment.placeUpTo (← segment.stop64 overflow) block

def placeAll (overflow : Overflow) (segment : Segment) : List Block → Except Fault Segment
  | [] => .ok segment
  | block :: rest => do placeAll overflow (← segment.place overflow block) rest

def injectUpTo (segment : Segment) (stop height : Nat) (tx : BlockTx) : Except Fault Segment :=
  match if height < stop then segment.block? height else none with
  | none => .error (.outside height segment.start stop)
  | some block => do
      let fuller ← (block.append tx).mapError .block
      return { segment with blocks := segment.blocks.set (height - segment.start) fuller }

def inject (overflow : Overflow) (segment : Segment) (height : Nat) (tx : BlockTx) :
    Except Fault Segment := do
  segment.injectUpTo (← segment.stop64 overflow) height tx

def injectAll (overflow : Overflow) (segment : Segment) :
    List (Nat × BlockTx) → Except Fault Segment
  | [] => .ok segment
  | (height, tx) :: rest => do injectAll overflow (← segment.inject overflow height tx) rest

/-- Blocks that name their predecessor by its hash, the first after `prev`. -/
def linked (prev : Bytes32) : List Block → List Block
  | [] => []
  | block :: rest =>
      let block := block.withPrev prev
      block :: linked block.hash rest

def relink (segment : Segment) : Segment :=
  { segment with blocks := linked Bytes32.zero segment.blocks }

end Segment

end WalletProxy
