import WalletProxy.Node.Error

/-! The statuses that calls of wallets and tests end with, and which status each error becomes. -/
namespace WalletProxy

inductive StatusCode where
  | invalidArgument
  | notFound
  | failedPrecondition
  | outOfRange
  | resourceExhausted
  | internal
  | unknown
  | unimplemented
  | unavailable
  | deadlineExceeded
  deriving DecidableEq, Repr

structure Status where
  code : StatusCode
  message : String
  deriving DecidableEq, Repr

def NodeError.statusCode : NodeError → StatusCode
  | reported code _ =>
      if code = unknownKey ∨ code = outOfRange then .notFound else .unknown
  | unsupported _ => .unimplemented
  | invalidParams _ => .invalidArgument
  | notReset => .failedPrecondition
  | unreachable _ => .unavailable
  | json _ | hex _ | block _ => .internal

def NodeError.status (error : NodeError) : Status := ⟨error.statusCode, error.message⟩

def SimError.statusCode : SimError → StatusCode
  | notReset => .failedPrecondition
  | block (.full _) => .resourceExhausted
  | outside _ _ _ => .outOfRange
  | fetch _ => .unavailable
  | sourceNotFound _ => .notFound
  | invalidBranch _ | invalidName _ | invalidHeight _ | block _ | transaction _ | hex _ =>
      .invalidArgument

def SimError.status (error : SimError) : Status := ⟨error.statusCode, error.message⟩

end WalletProxy
