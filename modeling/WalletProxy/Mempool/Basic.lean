import WalletProxy.Mempool.Withhold
import WalletProxy.Node.Fetch
import WalletProxy.Status
import WalletProxy.Window

/-! A snapshot of the transactions that wait at the node, in compact form. A refresh builds a new
snapshot and puts it in the place of the old one; it takes over what the old one knows and asks for
the rest. Within a while after one refresh the next one does nothing. -/
namespace WalletProxy

structure Snapshot where
  ids : List String
  /-- What is known of ids, the latest first: a compact transaction, or that there is nothing in it
  for light wallets. -/
  entries : List (String × Option CompactTx)
  deriving DecidableEq, Repr

namespace Snapshot

def empty : Snapshot := ⟨[], []⟩

def entry? (snapshot : Snapshot) (id : String) : Option (Option CompactTx) :=
  (snapshot.entries.find? (·.1 = id)).map (·.2)

/-- The id that a wallet tells from its end on, or a part of it, as it is shown. -/
def shownId (wire : Bytes) : Bytes := Hex.encodeBytes wire.reverse

def needed (snapshot : Snapshot) (held : List Bytes) : List CompactTx :=
  (Withhold.unheld Bytes.ofText snapshot.ids (held.map shownId)).filterMap fun id =>
    (snapshot.entry? id).join

end Snapshot

structure Mempool where
  interval : Nat
  snapshot : Snapshot
  refreshedAt : Option Nat
  deriving DecidableEq, Repr

inductive MempoolError where
  | node (error : NodeError)
  | json (detail : String)
  | hex (fault : Hex.Error)
  | transaction (fault : ReadError)
  deriving DecidableEq, Repr

namespace MempoolError

def message : MempoolError → String
  | node error => s!"rpc error. {error.message}"
  | json detail => s!"json error. {detail}"
  | hex fault => s!"hex decode error. {fault.message}"
  | transaction fault => s!"transaction decode error. {fault.message}"

def status : MempoolError → Status
  | node error => error.status
  | error => ⟨.internal, error.message⟩

def unexpectedReply : MempoolError := json "the reply has an unexpected shape"

end MempoolError

namespace Mempool

def fresh (interval : Nat) : Mempool := ⟨interval, .empty, none⟩

def clear (mempool : Mempool) : Mempool := fresh mempool.interval

def isOpen (mempool : Mempool) (now : Nat) : Bool :=
  match mempool.refreshedAt with
  | none => true
  | some last => mempool.interval ≤ now - last

def enter (mempool : Mempool) (now : Nat) : Bool × Mempool :=
  if mempool.isOpen now then (true, { mempool with refreshedAt := some now }) else (false, mempool)

def entryOf (tx : Transaction) : Option CompactTx :=
  if tx.isShielded then some (tx.compact 0) else none

def entryOfJson (json : Json) : Except MempoolError (Option CompactTx) :=
  match TxReply.hexOfJson? json with
  | none => .error .unexpectedReply
  | some hex =>
      match Hex.decode hex with
      | .error fault => .error (.hex fault)
      | .ok bytes =>
          match Transaction.ofBytes bytes with
          | .error fault => .error (.transaction fault)
          | .ok tx => .ok (entryOf tx)

end Mempool

structure Store where
  now : Nat
  window : Window
  mempool : Mempool
  deriving DecidableEq, Repr

end WalletProxy
