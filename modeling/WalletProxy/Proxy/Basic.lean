import WalletProxy.Follower
import WalletProxy.Node.Answering

/-! A proxy at work: its store, the node behind it, and the follower, which runs on its own. The
clock stands still while anything runs, and moves when all waits for it. -/
namespace WalletProxy

/-- What the follower does next: take a turn, take one after a rest, or go on with a turn when a
reply comes. -/
inductive Activity where
  | ready
  | resting (due : Nat)
  | waiting (due : Nat) (reply : Reply) (next : Reply → Job Store Empty Follower.Pace)

namespace Activity

def due : Activity → Nat
  | ready => 0
  | resting due => due
  | waiting due _ _ => due

def job : Activity → Job Store Empty Follower.Pace
  | ready | resting _ => Follower.turn
  | waiting _ reply next => next reply

end Activity

structure Proxy (ν : Type) where
  node : ν
  store : Store
  poll : Nat
  follower : Option Activity

namespace Proxy

variable {ν : Type}

def now (proxy : Proxy ν) : Nat := proxy.store.now

def atTime (proxy : Proxy ν) (time : Nat) : Proxy ν :=
  { proxy with store := { proxy.store with now := time } }

def startFollower (proxy : Proxy ν) : Proxy ν := { proxy with follower := some .ready }

def stopFollower (proxy : Proxy ν) : Proxy ν := { proxy with follower := none }

def isFollowing (proxy : Proxy ν) : Bool := proxy.follower.isSome

variable [Answering ν]

def follow : Job Store Empty Follower.Pace → Proxy ν → Proxy ν
  | .done .again, proxy => { proxy with follower := some .ready }
  | .done .rest, proxy => { proxy with follower := some (.resting (proxy.now + proxy.poll)) }
  | .act update next, proxy =>
      follow (next proxy.store) { proxy with store := update proxy.store }
  | .ask call next, proxy =>
      let (answer, node) := Answering.answer call proxy.node
      let proxy := { proxy with node }
      if answer.delay = 0 then follow (next answer.reply) proxy
      else { proxy with
        follower := some (.waiting (proxy.now + answer.delay) answer.reply next) }
  | .emit item _, _ => nomatch item

/-- Lets the follower run until it waits for the clock. There is no result if it takes more than so
many rounds. -/
def settle : (rounds : Nat) → Proxy ν → Option (Proxy ν)
  | rounds, proxy =>
      match proxy.follower with
      | none => some proxy
      | some activity =>
          if activity.due ≤ proxy.now then
            match rounds with
            | 0 => none
            | rounds + 1 => settle rounds (follow activity.job proxy)
          else some proxy

def patience : Nat := 1000000

/-- Moves the clock to a time, with the follower running when it is due: at first up to `limit`,
and once it has run, up to `later`. -/
def passWith (time later : Nat) : (rounds limit : Nat) → Proxy ν → Option (Proxy ν)
  | rounds, limit, proxy =>
      match proxy.follower with
      | none => some (proxy.atTime time)
      | some activity =>
          if activity.due ≤ limit then
            match rounds with
            | 0 => none
            | rounds + 1 => do
                let proxy ← settle patience (proxy.atTime (max proxy.now activity.due))
                passWith time later rounds later proxy
          else some (proxy.atTime time)

def passTo (time : Nat) (proxy : Proxy ν) : Option (Proxy ν) :=
  passWith time time patience time proxy

/-- Moves the clock to the time when a reply comes. Of what is due at that very time, only what has
waited from before the call runs first. -/
def awaitUntil (time : Nat) (proxy : Proxy ν) : Option (Proxy ν) :=
  passWith time (time - 1) patience time proxy

end Proxy

end WalletProxy
