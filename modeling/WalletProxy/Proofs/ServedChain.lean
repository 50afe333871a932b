import WalletProxy.Node.Fetch
import WalletProxy.Proofs.ChainRun
import WalletProxy.Proofs.TextRoundTrip
import WalletProxy.Sim.Node

/-! What a caller gets who asks the simulated chain for a block: the block that the active chain
holds at the height, through text, bytes and back. -/
namespace WalletProxy.SimChain

theorem servedOk {chain : SimChain} {height : Nat} {block : Block} :
    chain.served? height = some block ↔
      (∃ tip, chain.latest = some tip ∧ height ≤ tip) ∧ chain.block? height = some block := by
  unfold served?
  cases chain.latest with
  | none => simp
  | some tip =>
    by_cases reached : height ≤ tip
    · simp [reached]
    · simp [reached]

theorem blockThere {chain : SimChain} {height : Nat} :
    (∃ block, chain.block? height = some block) ↔
      chain.active.start ≤ height ∧ height < chain.active.start + chain.active.blocks.length := by
  constructor
  · intro h
    obtain ⟨block, found⟩ := h
    obtain ⟨above, position⟩ := Segment.blockAt.mp found
    obtain ⟨under, _⟩ := List.getElem?_eq_some_iff.mp position
    omega
  · intro h
    obtain ⟨above, under⟩ := h
    have position : height - chain.active.start < chain.active.blocks.length := by omega
    exact ⟨_, Segment.blockAt.mpr ⟨above, List.getElem?_eq_getElem position⟩⟩

theorem answerBlock (chain : SimChain) (height : Nat) :
    answer (Node.blockCall height) chain =
      (chain.getBlock [.text (toString height), .nat 0], chain) := by
  have reads : ¬ "getblock" = "sendrawtransaction" := by decide
  exact if_neg reads

theorem blockReply {chain : SimChain} {height : Nat} (bounded : height ≤ Unsigned.greatest64) :
    chain.getBlock [.text (toString height), .nat 0] =
      match chain.served? height with
      | none => .error (.reported NodeError.outOfRange "Block height out of range")
      | some block => .ok (.text (Hex.encode block.write)) := by
  have first : firstText? [.text (toString height), .nat 0] = some (toString height) := rfl
  cases served : chain.served? height with
  | none => simp only [getBlock, first, Unsigned.readDecimal bounded, served]
  | some block => simp only [getBlock, first, Unsigned.readDecimal bounded, served]

theorem writtenBlock {block : Block} (good : block.WellFormed) :
    Node.blockOfReply (.ok (.text (Hex.encode block.write))) = .ok (some block) := by
  simp only [Node.blockOfReply, Hex.decodeEncoded, Block.ofBytesWrite good]

theorem servedActive {chain : SimChain} {height : Nat} {block : Block}
    (served : chain.served? height = some block) : block ∈ chain.active.blocks := by
  obtain ⟨_, found⟩ := servedOk.mp served
  obtain ⟨_, position⟩ := Segment.blockAt.mp found
  exact List.mem_of_getElem? position

theorem validServed {chain : SimChain} (valid : chain.Valid) {height : Nat} {block : Block}
    (served : chain.served? height = some block) : block.WellFormed :=
  valid.sound.wellFormed block (servedActive served)

theorem servedHeight {chain : SimChain} (valid : chain.Valid) {height : Nat} {block : Block}
    (served : chain.served? height = some block) : block.height = height := by
  obtain ⟨_, found⟩ := servedOk.mp served
  obtain ⟨above, position⟩ := Segment.blockAt.mp found
  rw [valid.sound.heights _ block position]
  omega

theorem fetchServed {chain : SimChain} (valid : chain.Valid) {height : Nat}
    (bounded : height ≤ Unsigned.greatest64) (store : σ) :
    Job.run answer (Node.fetchBlock (ι := ι) height) store chain =
      ⟨.ok (chain.served? height), [], store, chain⟩ := by
  simp only [Node.fetchBlock, Job.run, answerBlock, blockReply bounded]
  cases served : chain.served? height with
  | none => rfl
  | some block => simp only [writtenBlock (validServed valid served)]

theorem fetchedIsActive (overflow : Unsigned.Overflow) (requests : List Request) (height : UInt64)
    (store : σ) :
    let chain := fresh.run overflow requests
    let start := chain.active.start
    let stop := start + chain.active.blocks.length
    let within := (∃ tip, chain.latest = some tip ∧ height.toNat ≤ tip) ∧
      start ≤ height.toNat ∧ height.toNat < stop
    let outcome := Job.run answer (Node.fetchBlock (ι := ι) height.toNat) store chain
    (within → ∃ block, chain.block? height.toNat = some block ∧ outcome.value = .ok (some block)) ∧
      (¬ within → outcome.value = .ok none) := by
  intro chain start stop within outcome
  have bounded : height.toNat ≤ Unsigned.greatest64 := Nat.le_pred_of_lt height.toNat_lt
  -- A height in 64 bits is written in digits that read back, so the answer is for this height.
  have ends : outcome = ⟨.ok (chain.served? height.toNat), [], store, chain⟩ :=
    fetchServed (runValid freshValid overflow requests) bounded store
  rw [ends]
  constructor
  · intro h
    obtain ⟨reached, range⟩ := h
    obtain ⟨block, found⟩ := blockThere.mpr range
    exact ⟨block, found, congrArg Except.ok (servedOk.mpr ⟨reached, found⟩)⟩
  · intro outside
    cases served : chain.served? height.toNat with
    | none => rfl
    | some block =>
      obtain ⟨reached, found⟩ := servedOk.mp served
      exact absurd ⟨reached, blockThere.mp ⟨block, found⟩⟩ outside

end WalletProxy.SimChain
