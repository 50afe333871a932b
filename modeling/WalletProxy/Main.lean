import WalletProxy.Launch

/-! The command line program. -/
namespace WalletProxy.Main

def usageText : String :=
  "usage: wallet-proxy [--grpc-bind-addr ADDR] [--rpc-uri URI] [--rpc-user USER] " ++
    "[--rpc-password PASSWORD] [--darkside-very-insecure] [--darkside-timeout MINUTES] " ++
    "[--poll-interval MILLISECONDS]"

/-- A process without sockets: no response comes, and no address can be bound. -/
def offline : Launch.Surroundings where
  transport _ := .error "no network"
  canBind _ := false

def report (outcome : Launch.Outcome) : IO UInt32 := do
  match outcome with
  | .usage .help =>
      IO.println usageText
      return 0
  | .usage .version =>
      IO.println Settings.version
      return 0
  | .usage _ =>
      IO.eprintln usageText
      return 2
  | .overflowed =>
      IO.eprintln "a number does not fit in 64 bits"
      return 101
  | .failed fault =>
      IO.eprintln fault.message
      return 1
  | .serving => return 0

end WalletProxy.Main

def main (arguments : List String) : IO UInt32 :=
  WalletProxy.Main.report (WalletProxy.Launch.run .ends WalletProxy.Main.offline arguments)
