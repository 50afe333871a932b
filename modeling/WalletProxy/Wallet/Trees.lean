import WalletProxy.Wallet.Handler

/-! The note commitment trees at a block. A node reports a tree that has not changed as a pointer to
the block that changed it last; the pointers of the Sapling tree are followed to the tree itself. -/
namespace WalletProxy.Wallet

variable {ι : Type}

def treeCall (param : String) : Call := ⟨"z_gettreestate", [.text param]⟩

def treeParam (id : BlockId) : Except Status String :=
  if 0 < id.height then .ok (toString id.height)
  else if !id.hash.isEmpty then .ok (Hex.encode id.hash)
  else .error (Handler.invalid "request for unspecified identifier")

structure Trees where
  sapling : PoolTree
  orchard : PoolTree
  deriving DecidableEq, Repr

namespace Trees

def ofReply (reply : TreeReply) : Trees := ⟨reply.sapling, reply.orchard⟩

def isPointer (trees : Trees) : Bool :=
  trees.sapling.finalState.isEmpty && !trees.sapling.skipHash.isEmpty

def after (trees : Trees) (reply : TreeReply) : Trees :=
  ⟨reply.sapling, if trees.orchard.finalState.isEmpty then reply.orchard else trees.orchard⟩

end Trees

/-- Follows the pointers of the Sapling tree, at most so many; there is no result when that is not
enough. -/
def followPointers : (rounds : Nat) → Trees → Job Store ι (Option (Except Status Trees))
  | rounds, trees =>
      if trees.isPointer then
        match rounds with
        | 0 => .done none
        | rounds + 1 =>
            .ask (treeCall trees.sapling.skipHash) fun reply =>
              match Node.readReply TreeReply.ofJson? reply with
              | .error error => .done (some (.error error.status))
              | .ok reply => followPointers rounds (trees.after reply)
      else .done (some (.ok trees))

def treeAnswer (requested : TreeReply) (trees : Trees) : Handler ι TreeState := do
  Handler.ensure (!trees.sapling.finalState.isEmpty)
    (Handler.notFound "node did not return a tree state")
  let info ← Handler.chainInfo
  return {
    network := info.chain
    height := requested.height.toNat
    hash := requested.hash
    time := requested.time
    saplingTree := trees.sapling.finalState
    orchardTree := trees.orchard.finalState }

def treeState (rounds : Nat) (id : BlockId) : Job Store ι (Option (Except Status TreeState)) :=
  match treeParam id with
  | .error status => .done (some (.error status))
  | .ok param =>
      .ask (treeCall param) fun reply =>
        match Node.readReply TreeReply.ofJson? reply with
        | .error error => .done (some (.error error.status))
        | .ok requested => do
            match ← followPointers rounds (.ofReply requested) with
            | none => return none
            | some (.error status) => return some (.error status)
            | some (.ok trees) => return some (← (treeAnswer requested trees).run)

end WalletProxy.Wallet
