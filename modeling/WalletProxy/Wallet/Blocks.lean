import WalletProxy.Wallet.Handler

/-! Blocks for wallets: the latest, one, or all of a range. -/
namespace WalletProxy.Wallet

variable {ι : Type}

def compactBlock (height : Nat) : Handler ι CompactBlock := do
  match ← Handler.look fun store => store.window.get? height with
  | some block => return block
  | none =>
      let block ← Handler.required (← Handler.fetchBlock height)
        (Handler.notFound s!"block {height} not found")
      Handler.ofExcept (fun fault => Handler.internal fault.message) block.compact

def latestBlock : Handler ι BlockId := do
  let info ← Handler.chainInfo
  let height := info.blocks.toNat
  let block ← Handler.look fun store => store.window.get? height
  return { height, hash := (block.map CompactBlock.hash).getD [] }

def getBlock (id : BlockId) : Handler ι CompactBlock := do
  Handler.ensure id.hash.isEmpty (Handler.invalid "GetBlock by hash is not yet implemented")
  Handler.ensure (id.height ≠ 0) (Handler.invalid "request for unspecified identifier")
  compactBlock id.height

def walk (step : Nat → Nat) : (left height : Nat) → Job Store CompactBlock (Option Status)
  | 0, _ => .done none
  | left + 1, height => do
      match ← (compactBlock height).run with
      | .error status => return some status
      | .ok block =>
          Job.yield block
          walk step left (step height)

def walkBetween (start stop : Nat) : Job Store CompactBlock (Option Status) :=
  if start ≤ stop then walk (· + 1) (stop - start + 1) start
  else walk (· - 1) (start - stop + 1) start

def getBlockRange (range : BlockRange) : Handler ι (Stream CompactBlock) :=
  match range.start, range.stop with
  | some start, some stop =>
      return ⟨some Settings.streamLimit, walkBetween start.height stop.height⟩
  | _, _ => throw (Handler.invalid "must specify start and end heights")

end WalletProxy.Wallet
