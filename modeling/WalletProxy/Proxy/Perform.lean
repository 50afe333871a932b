import WalletProxy.Proxy.Basic
import WalletProxy.Wallet.Handler

/-! A proxy performing jobs: it answers the calls of wallets, with replies of the node that may
take their time, and the follower goes on meanwhile. -/
namespace WalletProxy.Proxy

variable {ν ι α : Type} [Answering ν]

inductive Ending (α : Type) where
  | finished (value : α)
  | late

structure Performed (ν ι α : Type) where
  proxy : Proxy ν
  items : List ι
  ending : Ending α

/-- Performs a job with a deadline, if it has one. There is no result if something runs for ever
meanwhile. -/
def performAfter (deadline : Option Nat) :
    Job Store ι α → (items : List ι) → Proxy ν → Option (Performed ν ι α)
  | .done value, items, proxy => some ⟨proxy, items, .finished value⟩
  | .act update next, items, proxy =>
      performAfter deadline (next proxy.store) items { proxy with store := update proxy.store }
  | .emit item next, items, proxy => performAfter deadline next (item :: items) proxy
  | .ask call next, items, proxy =>
      let (answer, node) := Answering.answer call proxy.node
      let proxy := { proxy with node }
      let due := proxy.now + answer.delay
      if answer.delay = 0 then performAfter deadline (next answer.reply) items proxy
      else match deadline with
        | some limit =>
            if limit < due then do
              let proxy ← awaitUntil limit proxy
              return ⟨proxy, items, .late⟩
            else do
              let proxy ← awaitUntil due proxy
              performAfter deadline (next answer.reply) items proxy
        | none => do
            let proxy ← awaitUntil due proxy
            performAfter deadline (next answer.reply) items proxy

def perform (job : Job Store Empty α) (proxy : Proxy ν) : Option (α × Proxy ν) := do
  let performed ← performAfter none job [] proxy
  let proxy ← settle patience performed.proxy
  match performed.ending with
  | .finished value => some (value, proxy)
  | .late => none

structure Received (ι : Type) where
  items : List ι
  stop : Option Status

def receive (stream : Wallet.Stream ι) (proxy : Proxy ν) : Option (Received ι × Proxy ν) := do
  let deadline := stream.limit.map (proxy.now + ·)
  let performed ← performAfter deadline stream.produce [] proxy
  let proxy ← settle patience performed.proxy
  let stop := match performed.ending with
    | .finished stop => stop
    | .late => stream.limit.map Wallet.Stream.late
  return (⟨performed.items.reverse, stop⟩, proxy)

def answerCall (handler : Wallet.Handler Empty α) (proxy : Proxy ν) :
    Option (Except Status α × Proxy ν) :=
  perform handler.run proxy

def answerStream (handler : Wallet.Handler Empty (Wallet.Stream ι)) (proxy : Proxy ν) :
    Option (Except Status (Received ι) × Proxy ν) := do
  let performed ← performAfter none handler.run [] proxy
  match performed.ending with
  | .late => none
  | .finished (.error status) => return (.error status, ← settle patience performed.proxy)
  | .finished (.ok stream) =>
      let (received, proxy) ← receive stream performed.proxy
      return (.ok received, proxy)

end WalletProxy.Proxy
