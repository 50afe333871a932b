import WalletProxy.Proxy.Basic
import WalletProxy.Wallet.Handler
import WalletProxy.Sim.Node
import WalletProxy.Sim.File

/-! The calls by which a test drives a proxy over the simulated chain. -/
namespace WalletProxy
open Unsigned (Overflow)

instance : Answering SimChain where
  answer call chain :=
    let (reply, chain) := chain.answer call
    (⟨reply, 0⟩, chain)

abbrev SimProxy := Proxy SimChain

namespace SimProxy

def fresh (first poll mempoolInterval : Nat) : SimProxy where
  node := .fresh
  store := { now := 0, window := .startingAt first, mempool := .fresh mempoolInterval }
  poll
  follower := none

def onChain (proxy : SimProxy) (update : SimChain → Except SimError α × SimChain) :
    Except Status α × SimProxy :=
  let (result, node) := update proxy.node
  (result.mapError SimError.status, { proxy with node })

/-- The chain may leave a call without a result. -/
def onChain? (proxy : SimProxy) (update : SimChain → Option (Except SimError α) × SimChain) :
    Option (Except Status α) × SimProxy :=
  let (result, node) := update proxy.node
  (result.map (·.mapError SimError.status), { proxy with node })

/-- Starts a new session: a new chain, an empty window from the activation height on, an empty
mempool, and no follower. -/
def reset (proxy : SimProxy) (activation : Int) (branch name : String) :
    Except Status Unit × SimProxy :=
  match heightOfInt activation with
  | .error error => (.error error.status, proxy)
  | .ok activation =>
      match proxy.node.reset activation branch name with
      | (.error error, _) => (.error error.status, proxy)
      | (.ok (), node) =>
          (.ok (), { proxy with
            node
            store := { proxy.store with
              window := .startingAt activation, mempool := proxy.store.mempool.clear }
            follower := none })

def stageTexts (proxy : SimProxy) : List String → Except Status Unit × SimProxy
  | [] => (.ok (), proxy)
  | text :: rest =>
      match Hex.decode (String.ofList (Text.trim text.toList)) with
      | .error fault =>
          (.error (Wallet.Handler.invalid s!"invalid block hex. {fault.message}"), proxy)
      | .ok bytes =>
          match proxy.onChain (·.stageBlock bytes) with
          | (.error status, proxy) => (.error status, proxy)
          | (.ok (), proxy) => proxy.stageTexts rest

/-- Stages what stands in a file; nothing is fetched for a chain that is not reset. -/
def withFile (fetched : Except String String)
    (stage : SimChain → List Bytes → Except SimError Unit × SimChain) (chain : SimChain) :
    Except SimError Unit × SimChain :=
  if !chain.isReset then (.error .notReset, chain)
  else match SimFile.ofFetched fetched with
    | .error error => (.error error, chain)
    | .ok contents => stage chain contents

def stageFile (proxy : SimProxy) (fetched : Except String String) : Except Status Unit × SimProxy :=
  proxy.onChain (withFile fetched SimChain.stageBlocks)

def atHeight (proxy : SimProxy) (height : Int) (refused : Status → α) (next : Nat → α × SimProxy) :
    α × SimProxy :=
  match heightOfInt height with
  | .error error => (refused error.status, proxy)
  | .ok height => next height

def stageFiller (overflow : Overflow) (proxy : SimProxy) (height : Int) (nonce : Int32)
    (count : Int) : Option (Except Status Unit) × SimProxy :=
  proxy.atHeight height (some ∘ .error) fun height =>
    proxy.atHeight count (some ∘ .error) fun count =>
      proxy.onChain? (·.stageFiller overflow height nonce count)

def stageTxs (proxy : SimProxy) (txs : List (Nat × Bytes)) : Except Status Unit × SimProxy :=
  proxy.onChain (·.stageTxs txs)

def stageTxFile (proxy : SimProxy) (height : Int) (fetched : Except String String) :
    Except Status Unit × SimProxy :=
  proxy.atHeight height .error fun height =>
    proxy.onChain (withFile fetched fun chain txs => chain.stageTxs (txs.map (height, ·)))

/-- Commits what is staged; the follower starts anew if there is a chain to follow, and else
stops. -/
def applyStaged (overflow : Overflow) (proxy : SimProxy) (height : Int) :
    Option (Except Status Unit) × SimProxy :=
  proxy.atHeight height (some ∘ .error) fun height =>
    match proxy.onChain? (·.commit overflow height) with
    | (some (.ok ()), proxy) =>
        (some (.ok ()), if proxy.node.active.blocks.isEmpty then proxy.stopFollower
          else proxy.startFollower)
    | refused => refused

def incoming (proxy : SimProxy) : Wallet.Stream Wallet.RawTx :=
  .ofList (proxy.node.incoming.map (⟨·, 0⟩))

def clearIncoming (proxy : SimProxy) : SimProxy :=
  { proxy with node := proxy.node.clearIncoming }

end SimProxy

end WalletProxy
