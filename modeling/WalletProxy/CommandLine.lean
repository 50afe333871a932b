import WalletProxy.Net.SocketAddress
import WalletProxy.Net.Uri
import WalletProxy.Settings
import WalletProxy.Unsigned

/-! The command line: options with a value after them or after an equals sign, and flags. Arguments
are taken from left to right. The value of an option is looked at when the next option or the end
of the line comes, or at once after an equals sign. -/
namespace WalletProxy.CommandLine

inductive Usage where
  | unknownArgument
  | invalidValue
  | missingValue
  | tooManyValues
  | repeated
  | help
  | version
  deriving DecidableEq, Repr

inductive Setting where
  | bind
  | nodeUri
  | nodeUser
  | nodePassword
  | simLimit
  | poll
  deriving DecidableEq, Repr

inductive Name where
  | setting (setting : Setting)
  | simulated
  | help
  | version
  deriving DecidableEq, Repr

def Name.read? : String → Option Name
  | "grpc-bind-addr" => some (setting .bind)
  | "rpc-uri" => some (setting .nodeUri)
  | "rpc-user" => some (setting .nodeUser)
  | "rpc-password" => some (setting .nodePassword)
  | "darkside-timeout" => some (setting .simLimit)
  | "poll-interval" => some (setting .poll)
  | "darkside-very-insecure" => some simulated
  | "help" => some help
  | "version" => some version
  | _ => none

def Setting.accepts : Setting → String → Bool
  | bind, text => (Net.SocketAddress.read? text).isSome
  | nodeUri, text => Net.Uri.isUri text
  | nodeUser, _ | nodePassword, _ => true
  | simLimit, text | poll, text => (Unsigned.read? Unsigned.greatest64 text).isSome

structure Given where
  values : List (Setting × String)
  simulated : Bool
  pending : Option (Setting × Option String)
  deriving DecidableEq, Repr

namespace Given

def nothing : Given := ⟨[], false, none⟩

def value? (given : Given) (setting : Setting) : Option String :=
  (given.values.find? (·.1 = setting)).map (·.2)

def number? (given : Given) (setting : Setting) : Option Nat :=
  (given.value? setting).bind (Unsigned.read? Unsigned.greatest64)

def put (given : Given) (setting : Setting) (text : String) : Except Usage Given :=
  if (given.value? setting).isSome then .error .repeated
  else if !setting.accepts text then .error .invalidValue
  else .ok { given with values := given.values ++ [(setting, text)] }

def settle (given : Given) : Except Usage Given :=
  match given.pending with
  | none => .ok given
  | some (_, none) => .error .missingValue
  | some (setting, some text) => { given with pending := none }.put setting text

def named (given : Given) (name : String) (attached : Option String) : Except Usage Given := do
  match Name.read? name, attached with
  | none, _ => throw .unknownArgument
  | some (.setting setting), some text => (← given.settle).put setting text
  | some (.setting setting), none => return { ← given.settle with pending := some (setting, none) }
  | some _, some _ => throw .tooManyValues
  | some .simulated, none =>
      let given ← given.settle
      if given.simulated then throw .repeated else return { given with simulated := true }
  | some .help, none =>
      let _ ← given.settle
      throw .help
  | some .version, none =>
      let _ ← given.settle
      throw .version

def lettered (given : Given) (letter : Char) : Except Usage Given :=
  if letter = 'h' then given.named "help" none
  else if letter = 'V' then given.named "version" none
  else .error .unknownArgument

def bare (given : Given) (text : String) : Except Usage Given :=
  match given.pending with
  | some (setting, none) => .ok { given with pending := some (setting, some text) }
  | _ => .error .unknownArgument

def take (given : Given) (argument : String) : Except Usage Given :=
  match argument.toList with
  | '-' :: '-' :: rest =>
      let name := rest.takeWhile (· ≠ '=')
      given.named (String.ofList name)
        (if name.length < rest.length then some (String.ofList (rest.drop (name.length + 1)))
          else none)
  | '-' :: letter :: _ => given.lettered letter
  | _ => given.bare argument

def takeAll (given : Given) : List String → Except Usage Given
  | [] => given.settle
  | "--" :: rest => if rest.isEmpty then given.settle else .error .unknownArgument
  | argument :: rest => do takeAll (← given.take argument) rest

end Given

structure Config where
  bind : Net.SocketAddress
  nodeUri : String
  nodeUser : String
  nodePassword : String
  simulated : Bool
  simLimit : Nat
  poll : Nat
  deriving DecidableEq, Repr

namespace Config

def default : Config where
  bind := .v4 ⟨[127, 0, 0, 1]⟩ 9067
  nodeUri := "http://127.0.0.1:8232"
  nodeUser := ""
  nodePassword := ""
  simulated := false
  simLimit := Settings.simLimit
  poll := Settings.pollInterval

inductive Fault where
  | limitTooShort
  deriving DecidableEq, Repr

def Fault.message : Fault → String
  | limitTooShort => "darkside timeout must be at least one minute"

/-- The limit of so many minutes. Its seconds are counted in 64 bits, and there is at least one. -/
def limitOf (overflow : Unsigned.Overflow) (minutes : Nat) : Option (Except Fault Nat) :=
  (overflow.in64 (60 * minutes)).map fun seconds =>
    if seconds = 0 then .error .limitTooShort else .ok (seconds * Duration.second)

def withLimit (given : Given) (simLimit : Nat) : Config where
  bind := ((given.value? .bind).bind Net.SocketAddress.read?).getD default.bind
  nodeUri := (given.value? .nodeUri).getD default.nodeUri
  nodeUser := (given.value? .nodeUser).getD default.nodeUser
  nodePassword := (given.value? .nodePassword).getD default.nodePassword
  simulated := given.simulated
  simLimit
  poll := (given.number? .poll).getD default.poll

/-- The configuration, or why there is none; nothing at all if the program ends over its limit. -/
def ofGiven (overflow : Unsigned.Overflow) (given : Given) : Option (Except Fault Config) :=
  match given.number? .simLimit with
  | none => some (.ok (withLimit given default.simLimit))
  | some minutes => (limitOf overflow minutes).map fun limit => limit.map (withLimit given)

end Config

end WalletProxy.CommandLine
