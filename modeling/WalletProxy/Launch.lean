import WalletProxy.CommandLine
import WalletProxy.Node.Fetch
import WalletProxy.Node.Remote

/-! Starting a proxy from its command line, and the ways in which it does not stay up. -/
namespace WalletProxy.Launch
open CommandLine

structure Surroundings where
  transport : HttpRequest → Except String String
  canBind : Net.SocketAddress → Bool

inductive Fault where
  | config (fault : Config.Fault)
  | transport (detail : String)
  | node (error : NodeError)
  | expired (limit : Nat)
  deriving DecidableEq, Repr

def Fault.message : Fault → String
  | config fault => fault.message
  | transport detail => s!"transport error. {detail}"
  | node error => s!"rpc error. {error.message}"
  | expired limit => s!"darkside mode expired after {Duration.shown limit}"

def bindFault : Fault := .transport "the address cannot be bound"

def serveSimulated (around : Surroundings) (config : Config) : Fault :=
  if around.canBind config.bind then .expired config.simLimit else bindFault

def serveNode (around : Surroundings) (config : Config) : Option Fault :=
  let node := RemoteNode.connect config.nodeUri config.nodeUser config.nodePassword
  match Node.readReply ChainInfo.ofJson? (node.call around.transport Node.infoCall).1 with
  | .error error => some (.node error)
  | .ok _ => if around.canBind config.bind then none else some bindFault

def serve (around : Surroundings) (config : Config) : Option Fault :=
  if config.simulated then some (serveSimulated around config) else serveNode around config

inductive Outcome where
  | usage (usage : Usage)
  | overflowed
  | failed (fault : Fault)
  | serving
  deriving DecidableEq, Repr

def run (overflow : Unsigned.Overflow) (around : Surroundings) (arguments : List String) :
    Outcome :=
  match Given.nothing.takeAll arguments with
  | .error usage => .usage usage
  | .ok given =>
      match Config.ofGiven overflow given with
      | none => .overflowed
      | some (.error fault) => .failed (.config fault)
      | some (.ok config) =>
          match serve around config with
          | some fault => .failed fault
          | none => .serving

end WalletProxy.Launch
