import WalletProxy.Proofs.FollowerTurn
import WalletProxy.Proofs.ServedChain
import WalletProxy.Sim.Proxy

/-! Runs of a proxy over the simulated chain: what a test asks for and turns of the follower, in any
order. Whatever happens, the chain gets requests of its own and nothing else; the window changes
with a turn or begins anew with a reset. -/
namespace WalletProxy

namespace SimChain

def fetched (chain : SimChain) (height : Nat) : Except NodeError (Option Block) :=
  Node.blockOfReply (chain.getBlock [.text (toString height), .nat 0])

theorem fetchRun (chain : SimChain) (height : Nat) (store : σ) :
    Job.run answer (Node.fetchBlock (ι := ι) height) store chain =
      ⟨chain.fetched height, [], store, chain⟩ := by
  simp only [Node.fetchBlock, Job.run, answerBlock, fetched]

theorem fetchedOk {chain : SimChain} (valid : chain.Valid) {height : Nat} {found : Option Block} :
    chain.fetched height = .ok found ↔
      height ≤ Unsigned.greatest64 ∧ chain.served? height = found := by
  rcases Nat.lt_or_ge Unsigned.greatest64 height with beyond | bounded
  · have first : firstText? [.text (toString height), .nat 0] = some (toString height) := rfl
    simp only [fetched, getBlock, first, Unsigned.readBeyond beyond, Node.blockOfReply,
      NodeError.code?]
    constructor
    · intro same
      contradiction
    · intro h
      obtain ⟨bounded, _⟩ := h
      omega
  · have outcome := fetchServed (ι := Empty) valid bounded ()
    rw [fetchRun] at outcome
    have same := congrArg Job.Outcome.value outcome
    dsimp only at same
    rw [same, Except.ok.injEq, and_iff_right bounded]

theorem answersSteady (chain : SimChain) : Follower.Steady answer (· = chain) chain.fetched := by
  constructor
  · intro node height here
    rw [here, answerBlock]
  · intro node height here
    rw [here, answerBlock]
    rfl

end SimChain

namespace Activity

def paced (due : Nat) : Follower.Pace → Activity
  | .again => ready
  | .rest => resting due

theorem pacedJob (due : Nat) (pace : Follower.Pace) : (paced due pace).job = Follower.turn := by
  cases pace with
  | again => rfl
  | rest => rfl

end Activity

namespace SimProxy
open SimChain (Request)
open Unsigned (Overflow)

inductive Event where
  | reset (activation : Int) (branch name : String)
  | stageTexts (texts : List String)
  | stageFile (fetched : Except String String)
  | stageFiller (height : Int) (nonce : Int32) (count : Int)
  | stageTxs (txs : List (Nat × Bytes))
  | stageTxFile (height : Int) (fetched : Except String String)
  | applyStaged (height : Int)
  | turn

def step (overflow : Overflow) (proxy : SimProxy) : Event → SimProxy
  | .reset activation branch name => (proxy.reset activation branch name).2
  | .stageTexts texts => (proxy.stageTexts texts).2
  | .stageFile fetched => (proxy.stageFile fetched).2
  | .stageFiller height nonce count => (proxy.stageFiller overflow height nonce count).2
  | .stageTxs txs => (proxy.stageTxs txs).2
  | .stageTxFile height fetched => (proxy.stageTxFile height fetched).2
  | .applyStaged height => (proxy.applyStaged overflow height).2
  | .turn => Proxy.follow Follower.turn proxy

def run (overflow : Overflow) (proxy : SimProxy) (events : List Event) : SimProxy :=
  events.foldl (step overflow) proxy

section
variable (overflow : Overflow)

theorem runCons (proxy : SimProxy) (event : Event) (rest : List Event) :
    proxy.run overflow (event :: rest) = (proxy.step overflow event).run overflow rest := rfl

theorem runOne (proxy : SimProxy) (event : Event) :
    proxy.run overflow [event] = proxy.step overflow event := rfl

theorem runAppend (proxy : SimProxy) (first second : List Event) :
    proxy.run overflow (first ++ second) = (proxy.run overflow first).run overflow second :=
  List.foldl_append ..

def held (proxy : SimProxy) : List Event → List Block
  | [] => proxy.node.active.blocks
  | event :: rest => proxy.node.active.blocks ++ held (proxy.step overflow event) rest

theorem heldNil (proxy : SimProxy) : proxy.held overflow [] = proxy.node.active.blocks := rfl

theorem heldCons (proxy : SimProxy) (event : Event) (rest : List Event) :
    proxy.held overflow (event :: rest) =
      proxy.node.active.blocks ++ (proxy.step overflow event).held overflow rest := rfl

theorem heldFirst (proxy : SimProxy) (events : List Event) :
    ∀ block ∈ proxy.node.active.blocks, block ∈ proxy.held overflow events := by
  intro block member
  cases events with
  | nil => exact member
  | cons event rest => exact List.mem_append_left _ member

theorem heldLast (proxy : SimProxy) (events : List Event) :
    ∀ block ∈ (proxy.run overflow events).node.active.blocks,
      block ∈ proxy.held overflow events := by
  induction events generalizing proxy with
  | nil => exact heldFirst overflow proxy []
  | cons event rest ih =>
    intro block member
    exact List.mem_append_right _ (ih (proxy.step overflow event) block member)

/- The chain answers at once, so the follower never waits. -/
theorem followRun (job : Job Store Empty Follower.Pace) (proxy : SimProxy) :
    let outcome := Job.run SimChain.answer job proxy.store proxy.node
    Proxy.follow job proxy = { proxy with
      node := outcome.node
      store := outcome.store
      follower := some (.paced (outcome.store.now + proxy.poll) outcome.value) } := by
  induction job generalizing proxy with
  | done pace =>
    cases pace with
    | again => rfl
    | rest => rfl
  | act update next ih => exact ih proxy.store { proxy with store := update proxy.store }
  | ask call next ih =>
    exact ih (SimChain.answer call proxy.node).1
      { proxy with node := (SimChain.answer call proxy.node).2 }
  | emit item next _ => exact nomatch item

theorem turnFollowed (proxy : SimProxy) :
    ∃ activity, Proxy.follow Follower.turn proxy = { proxy with
      store := { proxy.store with
        window := (Follower.moved proxy.node.fetched proxy.store.window).2 }
      follower := some activity } := by
  have followed := followRun Follower.turn proxy
  have steady := SimChain.answersSteady proxy.node
  obtain ⟨later, same, runs⟩ := Follower.turnRuns steady (Eq.refl proxy.node) proxy.store
  rw [runs, same] at followed
  exact ⟨_, followed⟩

theorem resetCases (proxy : SimProxy) (activation : Int) (branch name : String) :
    (proxy.reset activation branch name).2 = proxy ∨
      ∃ start, (proxy.reset activation branch name).2.node =
          proxy.node.run overflow [.reset start branch name] ∧
        (proxy.reset activation branch name).2.store.window = .startingAt start := by
  unfold reset
  cases heightOfInt activation with
  | error fault => exact Or.inl rfl
  | ok start =>
    dsimp only
    cases made : proxy.node.reset start branch name with
    | mk result node =>
      cases result with
      | error fault => exact Or.inl rfl
      | ok granted => exact Or.inr ⟨start, (congrArg Prod.snd made).symm, rfl⟩

def Asked (proxy after : SimProxy) : Prop :=
  after.store = proxy.store ∧ ∃ requests, after.node = proxy.node.run overflow requests

theorem askedNothing (proxy : SimProxy) : Asked overflow proxy proxy := ⟨rfl, [], rfl⟩

theorem onChainAsked (proxy : SimProxy) {update : SimChain → Except SimError α × SimChain}
    (asks : ∃ requests, (update proxy.node).2 = proxy.node.run overflow requests) :
    Asked overflow proxy (proxy.onChain update).2 := ⟨rfl, asks⟩

theorem onChainAsked? (proxy : SimProxy)
    {update : SimChain → Option (Except SimError α) × SimChain}
    (asks : ∃ requests, (update proxy.node).2 = proxy.node.run overflow requests) :
    Asked overflow proxy (proxy.onChain? update).2 := ⟨rfl, asks⟩

theorem stageTextsAsked (proxy : SimProxy) (texts : List String) :
    Asked overflow proxy (proxy.stageTexts texts).2 := by
  induction texts generalizing proxy with
  | nil => exact askedNothing overflow proxy
  | cons text rest ih =>
    unfold stageTexts
    cases Hex.decode (String.ofList (Text.trim text.toList)) with
    | error fault => exact askedNothing overflow proxy
    | ok bytes =>
      dsimp only
      have first : Asked overflow proxy (proxy.onChain (·.stageBlock bytes)).2 :=
        onChainAsked overflow proxy ⟨[.stageBlock bytes], rfl⟩
      obtain ⟨sameStore, requests, asked⟩ := first
      cases staged : proxy.onChain (·.stageBlock bytes) with
      | mk result next =>
        rw [staged] at sameStore asked
        cases result with
        | error status => exact ⟨sameStore, requests, asked⟩
        | ok done =>
          obtain ⟨laterStore, others, later⟩ := ih next
          refine ⟨laterStore.trans sameStore, requests ++ others, ?_⟩
          rw [later, asked, SimChain.run, SimChain.run, SimChain.run, List.foldl_append]

theorem stageTextsRead (proxy : SimProxy) {texts : List String} {blocks : List Bytes}
    (read : (texts.map Text.trimmed).map Hex.decode = blocks.map .ok) :
    proxy.stageTexts texts = proxy.onChain (·.stageBlocks blocks) := by
  induction texts generalizing proxy blocks with
  | nil =>
    cases List.map_eq_nil_iff.mp read.symm
    rfl
  | cons text rest ih =>
    rw [List.map_cons, List.map_cons] at read
    obtain ⟨bytes, others, rfl, own, later⟩ := List.map_eq_cons_iff.mp read.symm
    have decoded : Hex.decode (String.ofList (Text.trim text.toList)) = .ok bytes := own.symm
    rw [stageTexts, decoded]
    simp only [onChain, SimChain.stageBlocks]
    cases proxy.node.stageBlock bytes with
    | mk result next =>
      cases result with
      | error fault => rfl
      | ok done => exact ih { proxy with node := next } later.symm

theorem stageTextsEncoded (proxy : SimProxy) (blocks : List Bytes) :
    proxy.stageTexts (blocks.map Hex.encode) = proxy.onChain (·.stageBlocks blocks) := by
  refine stageTextsRead proxy ?_
  rw [List.map_map, List.map_map]
  refine List.map_congr_left fun bytes _ => ?_
  rw [Function.comp_apply, Function.comp_apply, Text.trimmed,
    Text.trimKeeps (Hex.encodedUnblank bytes), String.ofList_toList, Hex.decodeEncoded]

theorem stageTextsStep (proxy : SimProxy) (blocks : List Bytes) :
    proxy.step overflow (.stageTexts (blocks.map Hex.encode)) =
      { proxy with node := (proxy.node.stageBlocks blocks).2 } :=
  congrArg Prod.snd (stageTextsEncoded proxy blocks)

theorem withFileAsks (chain : SimChain) (fetched : Except String String)
    {stage : SimChain → List Bytes → Except SimError Unit × SimChain}
    (asks : ∀ contents, ∃ requests, (stage chain contents).2 = chain.run overflow requests) :
    ∃ requests, (withFile fetched stage chain).2 = chain.run overflow requests := by
  unfold withFile
  split
  · exact ⟨[], rfl⟩
  · split
    · exact ⟨[], rfl⟩
    · exact asks _

theorem stageTxAlone (chain : SimChain) (height : Nat) (bytes : Bytes) :
    (chain.stageTxs [(height, bytes)]).2 = chain.run overflow [.stageTx height bytes] := by
  show _ = (chain.stageTx height bytes).2
  unfold SimChain.stageTxs
  cases chain.stageTx height bytes with
  | mk result next =>
    cases result with
    | error fault => rfl
    | ok done => rfl

theorem stageTxsAsks (chain : SimChain) (txs : List (Nat × Bytes)) :
    ∃ requests, (chain.stageTxs txs).2 = chain.run overflow requests := by
  induction txs generalizing chain with
  | nil => exact ⟨[], rfl⟩
  | cons entry rest ih =>
    obtain ⟨height, bytes⟩ := entry
    unfold SimChain.stageTxs
    cases staged : chain.stageTx height bytes with
    | mk result next =>
      have first : next = chain.step overflow (.stageTx height bytes) :=
        (congrArg Prod.snd staged).symm
      cases result with
      | error fault => exact ⟨[.stageTx height bytes], first⟩
      | ok done =>
        obtain ⟨others, later⟩ := ih next
        refine ⟨.stageTx height bytes :: others, ?_⟩
        show (next.stageTxs rest).2 =
          (chain.step overflow (.stageTx height bytes)).run overflow others
        rw [later, first]

theorem naturalHeight (height : Nat) : heightOfInt height = .ok height := if_neg (by omega)

theorem atHeightAsked (proxy : SimProxy) (height : Int) (refused : Status → α)
    {next : Nat → α × SimProxy} (asked : ∀ height, Asked overflow proxy (next height).2) :
    Asked overflow proxy (proxy.atHeight height refused next).2 := by
  unfold atHeight
  cases heightOfInt height with
  | error fault => exact askedNothing overflow proxy
  | ok height => exact asked height

theorem stageFillerStep (proxy : SimProxy) (start count : Nat) (nonce : Int32) :
    proxy.step overflow (.stageFiller start nonce count) =
      { proxy with node := proxy.node.run overflow [.stageFiller start nonce count] } := by
  simp only [step, stageFiller, atHeight, naturalHeight]
  rfl

theorem applyStagedStep (proxy : SimProxy) (height : Nat) :
    (proxy.step overflow (.applyStaged height)).store = proxy.store ∧
      (proxy.step overflow (.applyStaged height)).node =
        proxy.node.run overflow [.commit height] := by
  have after : (proxy.onChain? (·.commit overflow height)).2 =
      { proxy with node := proxy.node.run overflow [.commit height] } := rfl
  simp only [step, applyStaged, atHeight, naturalHeight]
  split
  · rename_i next committed
    rw [committed] at after
    dsimp only at after ⊢
    rw [after]
    split
    · exact ⟨rfl, rfl⟩
    · exact ⟨rfl, rfl⟩
  · rw [after]
    exact ⟨rfl, rfl⟩

theorem applyStagedAsked (proxy : SimProxy) (height : Int) :
    Asked overflow proxy (proxy.step overflow (.applyStaged height)) := by
  rcases Int.lt_or_le height 0 with negative | natural
  · have refused : heightOfInt height = .error (.invalidHeight height) := if_pos negative
    simp only [step, applyStaged, atHeight, refused]
    exact askedNothing overflow proxy
  · obtain ⟨size, rfl⟩ := Int.eq_ofNat_of_zero_le natural
    obtain ⟨sameStore, node⟩ := applyStagedStep overflow proxy size
    exact ⟨sameStore, _, node⟩

theorem stepCases (proxy : SimProxy) (event : Event) :
    Asked overflow proxy (proxy.step overflow event) ∨
    (∃ requests first, (proxy.step overflow event).node = proxy.node.run overflow requests ∧
      (proxy.step overflow event).store.window = .startingAt first) ∨
    ((proxy.step overflow event).node = proxy.node ∧ (proxy.step overflow event).store.window =
      (Follower.moved proxy.node.fetched proxy.store.window).2) := by
  cases event with
  | reset activation branch name =>
    rcases resetCases overflow proxy activation branch name with same | ⟨start, node, window⟩
    · left
      show Asked overflow proxy (proxy.reset activation branch name).2
      rw [same]
      exact askedNothing overflow proxy
    · exact Or.inr (Or.inl ⟨_, start, node, window⟩)
  | stageTexts texts => exact Or.inl (stageTextsAsked overflow proxy texts)
  | stageFile fetched =>
    exact Or.inl (onChainAsked overflow proxy (withFileAsks overflow proxy.node fetched fun contents =>
      ⟨[.stageBlocks contents], rfl⟩))
  | stageFiller height nonce count =>
    exact Or.inl (atHeightAsked overflow proxy height _ fun start =>
      atHeightAsked overflow proxy count _ fun size =>
        onChainAsked? overflow proxy ⟨[.stageFiller start nonce size], rfl⟩)
  | stageTxs txs => exact Or.inl (onChainAsked overflow proxy (stageTxsAsks overflow proxy.node txs))
  | stageTxFile height fetched =>
    exact Or.inl (atHeightAsked overflow proxy height _ fun height =>
      onChainAsked overflow proxy (withFileAsks overflow proxy.node fetched fun contents =>
        stageTxsAsks overflow proxy.node _))
  | applyStaged height => exact Or.inl (applyStagedAsked overflow proxy height)
  | turn =>
    obtain ⟨activity, turned⟩ := turnFollowed proxy
    rw [step, turned]
    exact Or.inr (Or.inr ⟨rfl, rfl⟩)

end

end SimProxy

end WalletProxy
