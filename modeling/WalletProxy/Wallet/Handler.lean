import WalletProxy.Mempool.Refresh
import WalletProxy.Wallet.Message
import WalletProxy.Settings

/-! What answering wallets is made of: jobs that end in an answer or a status, and streams. -/
namespace WalletProxy.Wallet

abbrev Handler (ι α : Type) := ExceptT Status (Job Store ι) α

/-- Items that are sent one after another. The job hands them out and tells the status that ended
it, if one did; if it takes longer than the limit, it is broken off. -/
structure Stream (ι : Type) where
  limit : Option Nat
  produce : Job Store ι (Option Status)

namespace Handler

variable {ι α : Type}

def invalid (message : String) : Status := ⟨.invalidArgument, message⟩
def notFound (message : String) : Status := ⟨.notFound, message⟩
def internal (message : String) : Status := ⟨.internal, message⟩

def ensure (condition : Bool) (status : Status) : Handler ι Unit :=
  if condition then pure () else throw status

def ofExcept (fault : ε → Status) : Except ε α → Handler ι α
  | .ok value => pure value
  | .error error => throw (fault error)

def required (value : Option α) (status : Status) : Handler ι α :=
  ofExcept id (match value with
    | some value => .ok value
    | none => .error status)

def ofJob (fault : ε → Status) (job : Job Store ι (Except ε α)) : Handler ι α :=
  .mk (Except.mapError fault <$> job)

def look (view : Store → α) : Handler ι α := .mk (.act id fun store => .done (.ok (view store)))

def request (call : Call) (read? : Json → Option α) : Handler ι α :=
  .mk (.ask call fun reply => .done ((Node.readReply read? reply).mapError NodeError.status))

def chainInfo : Handler ι ChainInfo := ofJob NodeError.status Node.chainInfo

def fetchBlock (height : Nat) : Handler ι (Option Block) :=
  ofJob NodeError.status (Node.fetchBlock height)

def nodeHex (text : String) : Handler ι Bytes :=
  ofExcept (fun fault => internal fault.message) (Hex.decode text)

end Handler

namespace Stream

variable {ι : Type}

def late (limit : Nat) : Status :=
  ⟨.deadlineExceeded, s!"stream not completed within {Duration.shown limit}"⟩

def emitAll : List ι → Job Store ι (Option Status)
  | [] => .done none
  | item :: rest => .emit item (emitAll rest)

def ofList (items : List ι) : Stream ι := ⟨none, emitAll items⟩

def emitEach (job : κ → Handler ι ι) : List κ → Job Store ι (Option Status)
  | [] => .done none
  | key :: rest => do
      match ← (job key).run with
      | .error status => return some status
      | .ok item =>
          Job.yield item
          emitEach job rest

end Stream

end WalletProxy.Wallet
