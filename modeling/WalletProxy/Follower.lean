import WalletProxy.Mempool.Basic

/-! Following the chain: turn after turn, the window is moved one block towards the node's tip. A
block that does not follow the last one shows that the chain has changed, and drops the last. -/
namespace WalletProxy.Follower

variable {ι : Type}

inductive Pace where
  | again
  | rest
  deriving DecidableEq, Repr

def onWindow (update : Window → α × Window) : Job Store ι α :=
  .change fun store =>
    let (value, window) := update store.window
    (value, { store with window })

def extend (block : CompactBlock) : Job Store ι Pace := do
  if ← onWindow (·.push block) then return .again
  else if (← onWindow Window.pop).isSome then return .again
  else return .rest

def isStale (hash : Bytes) : Except NodeError (Option Block) → Bool
  | .ok (some block) => block.hash.val ≠ hash
  | .ok none => true
  | .error _ => false

def verify : Job Store ι Unit := do
  match ← Job.look fun store : Store => store.window.tip? with
  | none => return ()
  | some (height, hash) =>
      if isStale hash (← Node.fetchBlock height) then
        let _ ← onWindow Window.pop
      return ()

def turn : Job Store ι Pace := do
  let height ← Job.look fun store : Store => store.window.next
  match ← Node.fetchBlock height with
  | .error _ => return .rest
  | .ok none =>
      verify
      return .rest
  | .ok (some block) =>
      match block.compact with
      | .error _ => return .rest
      | .ok compact => extend compact

end WalletProxy.Follower
