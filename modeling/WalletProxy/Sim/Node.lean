import WalletProxy.Job
import WalletProxy.Node.Reply
import WalletProxy.Unsigned

/-! The simulated chain as a node: it answers the calls that serving wallets needs. -/
namespace WalletProxy.SimChain

/-- A height as the node's replies give it: in 64 bits with a sign. -/
def shownHeight (height : Nat) : Int := (Int64.ofNat height).toInt

def info (chain : SimChain) : ChainInfo :=
  let tip := match chain.latest with
    | none => -1
    | some height => shownHeight height
  { chain := chain.name
    upgrades := [(ChainInfo.saplingUpgrade, chain.activation)]
    blocks := tip
    headers := tip
    consensus := ⟨chain.branch, chain.branch⟩ }

def firstText? (params : List Json) : Option String := params.head?.bind Json.text?

def served? (chain : SimChain) (height : Nat) : Option Block :=
  match chain.latest with
  | none => none
  | some tip => if height ≤ tip then chain.block? height else none

def getBlock (chain : SimChain) (params : List Json) : Reply :=
  match firstText? params with
  | none => .error (.invalidParams "failed to parse getblock request")
  | some text =>
      match Unsigned.read? Unsigned.greatest64 text with
      | none => .error (.invalidParams "error parsing height as integer")
      | some height =>
          match chain.served? height with
          | none => .error (.reported NodeError.outOfRange "Block height out of range")
          | some block => .ok (.text (Hex.encode block.write))

def isTxId (text : String) : Bool := text.utf8ByteSize = 64 && text.toList.all Hex.isDigit

def lowerCase (text : String) : String := String.ofList (text.toList.map Char.toLower)

def findTx (id : String) : List Block → Option (BlockTx × Nat)
  | [] => none
  | block :: rest =>
      match block.transactions.find? fun tx => tx.id.display = id with
      | some tx => some (tx, block.height)
      | none => findTx id rest

def getRawTransaction (chain : SimChain) (params : List Json) : Reply :=
  if !chain.isReset then .error .notReset
  else match firstText? params with
    | none => .error (.invalidParams "failed to parse getrawtransaction request")
    | some text =>
        if !isTxId text then .error (.reported NodeError.malformedId s!"invalid txid {text}")
        else match findTx (lowerCase text) chain.active.blocks with
          | none =>
              .error (.reported NodeError.unknownKey "No information available about transaction")
          | some (tx, height) =>
              .ok (TxReply.toJson ⟨Hex.encode tx.data, shownHeight height⟩)

def sendRawTransaction (chain : SimChain) (params : List Json) : Reply × SimChain :=
  match firstText? params with
  | none => (.error (.invalidParams "failed to parse sendrawtransaction JSON"), chain)
  | some text =>
      match Hex.decode text with
      | .error _ =>
          (.error (.invalidParams "failed to parse sendrawtransaction value as a hex string"),
            chain)
      | .ok bytes => (.ok .null, chain.pushIncoming bytes)

def read (chain : SimChain) (call : Call) : Reply :=
  match call.method with
  | "getblockchaininfo" => .ok chain.info.toJson
  | "getblock" => chain.getBlock call.params
  | "getrawtransaction" => chain.getRawTransaction call.params
  | method => .error (.unsupported method)

def answer (call : Call) (chain : SimChain) : Reply × SimChain :=
  if call.method = "sendrawtransaction" then chain.sendRawTransaction call.params
  else (chain.read call, chain)

end WalletProxy.SimChain
