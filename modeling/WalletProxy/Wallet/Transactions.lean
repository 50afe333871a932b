import WalletProxy.Wallet.Handler
import WalletProxy.Json.Printer

/-! Transactions for wallets: fetched by their id, sent to the node, or waiting in the mempool. -/
namespace WalletProxy.Wallet

variable {ι : Type}

def txCall (shownId : String) : Call := ⟨"getrawtransaction", [.text shownId, .nat 1]⟩

def transaction (id : Bytes) : Handler ι RawTx := do
  let reply ← Handler.request (txCall (Hex.encode id.reverse)) TxReply.ofJson?
  return { data := ← Handler.nodeHex reply.hex, height := reply.height.toNat }

def getTransaction (filter : TxFilter) : Handler ι RawTx :=
  if !filter.hash.isEmpty then do
    Handler.ensure (filter.hash.length = 32) (Handler.invalid "transaction ID has invalid length")
    transaction filter.hash
  else if filter.block.any fun block => !block.hash.isEmpty then
    throw (Handler.invalid
      "can't GetTransaction with a blockhash+num. Please call GetTransaction with txid")
  else throw (Handler.invalid "please call GetTransaction with txid")

def sendCall (data : Bytes) : Call := ⟨"sendrawtransaction", [.text (Hex.encode data)]⟩

/-- What the node said of a sent transaction. An error that it reports is an answer, too. -/
def responseOf : Reply → Except Status SendResponse
  | .ok .null => .ok ⟨0, ""⟩
  | .ok json => .ok ⟨0, json.print⟩
  | .error (.reported code text) => .ok ⟨Int32.ofInt code, text⟩
  | .error error => .error error.status

def sendTransaction (tx : RawTx) : Handler ι SendResponse := do
  Handler.ensure (!tx.data.isEmpty) (Handler.invalid "bad Transaction or Data")
  .mk (.ask (sendCall tx.data) fun reply => .done (responseOf reply))

def mempoolTxs (held : List Bytes) : Handler ι (Stream CompactTx) := do
  return .ofList (← Handler.ofJob MempoolError.status (Mempool.query held))

end WalletProxy.Wallet
