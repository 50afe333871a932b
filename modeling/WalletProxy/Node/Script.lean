import WalletProxy.Node.Answering

/-! A node that answers from a script: for each key a queue of replies, of which the last one
stays. It records the calls it receives. -/
namespace WalletProxy

structure Script where
  queues : List (String × List Answer)
  calls : List Call

namespace Script

def ofQueues (queues : List (String × List Answer)) : Script := ⟨queues, []⟩

def keys (call : Call) : List String :=
  [call.method ++ " " ++ (call.params.head?.bind Json.text?).getD "", call.method]

def queue (script : Script) (key : String) : List Answer :=
  ((script.queues.find? (·.1 = key)).map (·.2)).getD []

def put (script : Script) (key : String) (queue : List Answer) : Script :=
  { script with queues := (key, queue) :: script.queues.filter (·.1 ≠ key) }

def putAll (script : Script) (queues : List (String × List Answer)) : Script :=
  queues.foldl (fun script (key, queue) => script.put key queue) script

/-- Takes the first reply off a queue, unless it is the last. -/
def takeFrom (script : Script) (key : String) : Option (Answer × Script) :=
  match script.queue key with
  | [] => none
  | [answer] => some (answer, script)
  | answer :: rest => some (answer, script.put key rest)

def answer (call : Call) (script : Script) : Answer × Script :=
  let script := { script with calls := call :: script.calls }
  ((keys call).findSome? script.takeFrom).getD
    (⟨.error (.unsupported call.method), 0⟩, script)

def takeCalls (script : Script) : List Call × Script :=
  (script.calls.reverse, { script with calls := [] })

instance : Answering Script := ⟨answer⟩

end Script

end WalletProxy
