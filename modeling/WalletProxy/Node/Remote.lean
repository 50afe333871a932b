import WalletProxy.Job
import WalletProxy.Json.Reader
import WalletProxy.Text.Base64

/-! A node behind HTTP. A call becomes a request with a number of its own; the reply is the result
or the error in the response, whatever the status of the response says. -/
namespace WalletProxy

structure HttpRequest where
  uri : String
  authorization : String
  contentType : String
  body : Json

structure RemoteNode where
  uri : String
  user : String
  password : String
  nextId : Nat
  deriving DecidableEq, Repr

namespace RemoteNode

def connect (uri user password : String) : RemoteNode := ⟨uri, user, password, 1⟩

def body (id : Nat) (call : Call) : Json :=
  .ofMembers [("jsonrpc", .text "1.0"), ("id", .nat id), ("method", .text call.method),
    ("params", .list call.params)]

def authorization (node : RemoteNode) : String :=
  "Basic " ++ Base64.encode (Bytes.ofText (node.user ++ ":" ++ node.password))

def request (node : RemoteNode) (call : Call) : HttpRequest × RemoteNode :=
  ({ uri := node.uri
     authorization := node.authorization
     contentType := "application/json"
     body := body node.nextId call },
   { node with nextId := node.nextId + 1 })

/-- The fields of a response or of an error in it, as they are written: none comes twice. -/
def writtenFields? (names : List String) : Json → Option (List (Option Json))
  | .object members =>
      if names.all fun name => (members.filter (·.1 = name)).length ≤ 1 then
        some (names.map fun name => (members.find? (·.1 = name)).map (·.2))
      else none
  | .list items =>
      if items.length ≤ names.length then
        some (items.map some ++ List.replicate (names.length - items.length) none)
      else none
  | _ => none

def errorOfJson? (json : Json) : Option NodeError := do
  match ← writtenFields? ["code", "message"] json with
  | [some code, some text] => return .reported (← code.int64?) (← text.text?)
  | _ => none

def present : Option Json → Option Json
  | some .null => none
  | json => json

def replyOfText? (text : String) : Option Reply := do
  match ← writtenFields? ["result", "error"] (← Json.readMembers text) with
  | [result, error] =>
      match present error with
      | some error => return .error (← errorOfJson? error)
      | none => return .ok ((present result).getD .null).canonical
  | _ => none

def replyOf (response : Except String String) : Reply :=
  match response with
  | .error detail => .error (.unreachable detail)
  | .ok text =>
      (replyOfText? text).getD (.error (.unreachable "the response is no reply to a call"))

def call (transport : HttpRequest → Except String String) (call : Call) (node : RemoteNode) :
    Reply × RemoteNode :=
  let (request, node) := node.request call
  (replyOf (transport request), node)

end RemoteNode

end WalletProxy
