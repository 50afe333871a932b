import WalletProxy.Wallet.Handler

/-! What the proxy tells about itself and the chain it serves. -/
namespace WalletProxy.Wallet

variable {ι : Type}

def serverInfo : Handler ι ServerInfo := do
  let info ← Handler.chainInfo
  let height := info.blocks.toNat
  return {
    version := Settings.version
    vendor := Settings.vendor
    taddrSupport := true
    chainName := info.chain
    saplingActivation := info.saplingActivation
    consensusBranch := info.consensus.chaintip
    blockHeight := height
    gitCommit := ""
    branch := ""
    buildDate := ""
    buildUser := ""
    estimatedHeight := height
    nodeBuild := ""
    nodeSubversion := "" }

end WalletProxy.Wallet
