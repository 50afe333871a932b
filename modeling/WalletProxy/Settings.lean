import WalletProxy.Duration

/-! The constants of the proxy. -/
namespace WalletProxy.Settings

def version : String := "0.1.0"

def vendor : String := "ZingoLabs LightWalletD"

def mempoolInterval : Nat := 2 * Duration.second

def streamLimit : Nat := 30 * Duration.second

def pollInterval : Nat := 2 * Duration.second

def simLimit : Nat := 30 * Duration.minute

end WalletProxy.Settings
