import WalletProxy.Sim.Chain

/-! What a call to a node can end in instead of a reply. -/
namespace WalletProxy

inductive NodeError where
  | reported (code : Int) (text : String)
  | unsupported (method : String)
  | invalidParams (text : String)
  | notReset
  | unreachable (detail : String)
  | json (detail : String)
  | hex (fault : Hex.Error)
  | block (fault : BlockError)
  deriving DecidableEq, Repr

namespace NodeError

def unknownKey : Int := -5

def outOfRange : Int := -8

def malformedId : Int := -9

def code? : NodeError → Option Int
  | reported code _ => some code
  | _ => none

def message : NodeError → String
  | reported code text => s!"{code}: {text}"
  | unsupported method => s!"there was an attempt to call an unsupported RPC. {method}"
  | invalidParams text => s!"invalid params. {text}"
  | notReset => "please call Reset first"
  | unreachable detail => s!"request error. {detail}"
  | json detail => s!"json error. {detail}"
  | hex fault => s!"hex decode error. {fault.message}"
  | block fault => s!"block error. {fault.message}"

def unexpectedReply : NodeError := json "the reply has an unexpected shape"

end NodeError

end WalletProxy
