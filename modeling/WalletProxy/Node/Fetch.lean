import WalletProxy.Job
import WalletProxy.Node.Reply
import WalletProxy.Block.Basic

/-! The two questions that all parts of the proxy put to a node: for a block, and for the state of
the chain. -/
namespace WalletProxy.Node

/-- The block in a reply. A node reports a height out of range where it has no block yet. -/
def blockOfReply (reply : Reply) : Except NodeError (Option Block) :=
  match reply with
  | .error error =>
      if error.code? = some NodeError.outOfRange then .ok none else .error error
  | .ok (.text hex) =>
      match Hex.decode hex with
      | .error fault => .error (.hex fault)
      | .ok bytes =>
          match Block.ofBytes bytes with
          | .error fault => .error (.block fault)
          | .ok block => .ok (some block)
  | .ok _ => .error .unexpectedReply

def blockCall (height : Nat) : Call := ⟨"getblock", [.text (toString height), .nat 0]⟩

def fetchBlock (height : Nat) : Job σ ι (Except NodeError (Option Block)) :=
  .ask (blockCall height) fun reply => .done (blockOfReply reply)

def readReply (read? : Json → Option α) (reply : Reply) : Except NodeError α := do
  match read? (← reply) with
  | some value => .ok value
  | none => .error .unexpectedReply

def infoCall : Call := ⟨"getblockchaininfo", []⟩

def chainInfo : Job σ ι (Except NodeError ChainInfo) :=
  .ask infoCall fun reply => .done (readReply ChainInfo.ofJson? reply)

end WalletProxy.Node
