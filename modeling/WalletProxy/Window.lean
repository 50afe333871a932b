import WalletProxy.Compact

/-! The window of compact blocks that is kept at hand: a run of successive blocks from a first
height on, each the predecessor of the next. -/
namespace WalletProxy

structure Window where
  first : Nat
  blocks : List CompactBlock
  deriving DecidableEq, Repr

namespace Window

def startingAt (first : Nat) : Window := ⟨first, []⟩

def next (window : Window) : Nat := window.first + window.blocks.length

def get? (window : Window) (height : Nat) : Option CompactBlock :=
  if window.first ≤ height then window.blocks[height - window.first]? else none

def tip? (window : Window) : Option (Nat × Bytes) :=
  window.blocks.getLast?.map fun block => (block.height, block.hash)

def extends? (window : Window) (block : CompactBlock) : Bool :=
  block.height = window.next &&
    window.blocks.getLast?.all fun last => last.hash = block.prevHash

def push (window : Window) (block : CompactBlock) : Bool × Window :=
  if window.extends? block then (true, { window with blocks := window.blocks ++ [block] })
  else (false, window)

def pop (window : Window) : Option CompactBlock × Window :=
  (window.blocks.getLast?, { window with blocks := window.blocks.dropLast })

end Window

end WalletProxy
