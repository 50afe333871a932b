import WalletProxy.Job

/-! Nodes that answer calls, and change with the calls they get. -/
namespace WalletProxy

structure Answer where
  reply : Reply
  delay : Nat

class Answering (ν : Type) where
  answer : Call → ν → Answer × ν

end WalletProxy
