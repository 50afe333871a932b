import WalletProxy.Wallet.Transactions

/-! Transparent addresses: their balance, their transactions, and their unspent outputs. -/
namespace WalletProxy.Wallet

variable {ι : Type}

def isAddress (text : String) : Bool :=
  text.utf8ByteSize = 35 && text.toList.head? = some 't' && text.toList.all Char.isAlphanum

def checkAddress (text : String) : Except Status Unit :=
  if isAddress text then .ok ()
  else .error (Handler.invalid s!"invalid transparent address: {text}")

def checkAddresses (texts : List String) : Except Status Unit := texts.forM checkAddress

def addressList (addresses : List String) : String × Json :=
  ("addresses", .list (addresses.map .text))

def balanceCall (addresses : List String) : Call :=
  ⟨"getaddressbalance", [.ofMembers [addressList addresses]]⟩

def getBalance (addresses : List String) : Handler ι Balance := do
  Handler.ofExcept id (checkAddresses addresses)
  let balance ← Handler.request (balanceCall addresses) balanceOfJson?
  return ⟨Int64.ofInt balance⟩

def txidsCall (address : String) (start stop : Nat) : Call :=
  ⟨"getaddresstxids",
    [.ofMembers [addressList [address], ("start", .nat start), ("end", .nat stop)]]⟩

def listedTx (shownId : String) : Handler ι RawTx := do
  transaction (← Handler.nodeHex shownId).reverse

def addressTxs (filter : AddressFilter) : Handler ι (Stream RawTx) := do
  Handler.ofExcept id (checkAddress filter.address)
  let range ← Handler.required filter.range (Handler.invalid "block range is required")
  let start ← Handler.required range.start (Handler.invalid "start block height is required")
  let stop ← Handler.required range.stop (Handler.invalid "end block height is required")
  let ids ← Handler.request (txidsCall filter.address start.height stop.height)
    (Json.listOf? Json.text?)
  return ⟨some Settings.streamLimit, Stream.emitEach listedTx ids⟩

def utxosCall (addresses : List String) : Call :=
  ⟨"getaddressutxos", [.ofMembers [addressList addresses]]⟩

def selected (filter : UtxoFilter) (entries : List UtxoReply) : List UtxoReply :=
  let high := entries.filter fun entry => filter.startHeight ≤ entry.height.toNat
  if filter.maxEntries = 0 then high else high.take filter.maxEntries

def utxoOf (entry : UtxoReply) : Except Hex.Error Utxo := do
  let txid ← Hex.decode entry.txid
  let script ← Hex.decode entry.script
  return {
    address := entry.address
    txid := txid.reverse
    index := Int32.ofInt entry.outputIndex
    script
    value := Int64.ofNat entry.satoshis
    height := entry.height.toNat }

def getUtxos (filter : UtxoFilter) : Handler ι (List Utxo) := do
  Handler.ofExcept id (checkAddresses filter.addresses)
  let entries ← Handler.request (utxosCall filter.addresses) (Json.listOf? UtxoReply.ofJson?)
  Handler.ofExcept (fun fault => Handler.internal fault.message)
    ((selected filter entries).mapM utxoOf)

def getUtxoStream (filter : UtxoFilter) : Handler ι (Stream Utxo) := do
  return .ofList (← getUtxos filter)

end WalletProxy.Wallet
