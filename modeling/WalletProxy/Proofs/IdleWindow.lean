import Mathlib.Data.List.Nodup
import WalletProxy.Proofs.ProxyRun
import WalletProxy.Proofs.StagingArea
import WalletProxy.Proofs.WindowBesideChain

/-! A window at rest beside the active chain. The follower tells blocks apart by their hashes, and
the header that is hashed does not say which transactions were put into a block, only how many. So
the window has the headers of the active chain, but its transactions only where no other block with
the same header was ever in their place. -/
namespace WalletProxy.SimProxy
open Window (Beside)
open Unsigned (Overflow greatest64)

/-- Hashes name headers: two of these blocks with one hash have one header, and the hash that a
first block gives for its predecessor is none of theirs. -/
structure Named (blocks : List Block) : Prop where
  apart : ∀ block ∈ blocks, ∀ other ∈ blocks,
    block.hash = other.hash → block.header = other.header
  nonzero : ∀ block ∈ blocks, block.hash ≠ Bytes32.zero

structure Idle (proxy : SimProxy) : Prop where
  ended : (Job.run SimChain.answer (Node.fetchBlock (ι := Empty) proxy.store.window.next)
    proxy.store proxy.node).value = .ok none
  kept : (Proxy.follow Follower.turn proxy).store.window = proxy.store.window

theorem idleOk {proxy : SimProxy} : proxy.Idle ↔
    proxy.node.fetched proxy.store.window.next = .ok none ∧
      (Follower.moved proxy.node.fetched proxy.store.window).2 = proxy.store.window := by
  obtain ⟨activity, turned⟩ := turnFollowed proxy
  constructor
  · intro idle
    refine ⟨?_, ?_⟩
    · rw [← idle.ended, SimChain.fetchRun]
    · have kept := idle.kept
      rw [turned] at kept
      exact kept
  · intro h
    obtain ⟨ended, kept⟩ := h
    refine ⟨?_, ?_⟩
    · rw [SimChain.fetchRun]
      exact ended
    · rw [turned]
      exact kept

structure Traced (blocks : List Block) (proxy : SimProxy) : Prop where
  valid : proxy.node.Valid
  sound : proxy.store.window.Sound
  taken : ∀ cached ∈ proxy.store.window.blocks, ∃ old ∈ blocks, old.compact = .ok cached

theorem freshTraced (blocks : List Block) (first poll interval : Nat) :
    Traced blocks (fresh first poll interval) :=
  ⟨SimChain.freshValid, Window.startingAtSound first, by simp [fresh, Window.startingAt]⟩

section
variable {blocks : List Block} {proxy : SimProxy} (traced : Traced blocks proxy)
include traced

theorem movedTaken (active : ∀ block ∈ proxy.node.active.blocks, block ∈ blocks) :
    ∀ cached ∈ (Follower.moved proxy.node.fetched proxy.store.window).2.blocks,
      ∃ old ∈ blocks, old.compact = .ok cached := by
  rcases Follower.movedCases proxy.node.fetched proxy.store.window with
    same | popped | ⟨block, compacted, given, ok, _, grown⟩
  · rw [same]
    exact traced.taken
  · rw [popped]
    exact fun cached member => traced.taken cached ((List.dropLast_sublist _).subset member)
  · rw [grown]
    obtain ⟨_, served⟩ := (SimChain.fetchedOk traced.valid).mp given
    have own := active block (SimChain.servedActive served)
    exact List.forall_mem_append.mpr
      ⟨traced.taken, List.forall_mem_singleton.mpr ⟨block, own, ok⟩⟩

theorem stepTraced (overflow : Overflow)
    (active : ∀ block ∈ proxy.node.active.blocks, block ∈ blocks) (event : Event) :
    Traced blocks (proxy.step overflow event) := by
  rcases stepCases overflow proxy event with
    ⟨sameStore, requests, node⟩ | ⟨requests, first, node, window⟩ | ⟨node, window⟩
  · have valid := SimChain.runValid traced.valid overflow requests
    rw [← node] at valid
    refine ⟨valid, ?_, ?_⟩
    · rw [sameStore]
      exact traced.sound
    · rw [sameStore]
      exact traced.taken
  · have valid := SimChain.runValid traced.valid overflow requests
    rw [← node] at valid
    refine ⟨valid, ?_, ?_⟩
    · rw [window]
      exact Window.startingAtSound first
    · rw [window]
      simp [Window.startingAt]
  · have sound := Follower.movedSound proxy.node.fetched traced.sound
    have taken := movedTaken traced active
    rw [← window] at sound taken
    have valid := traced.valid
    rw [← node] at valid
    exact ⟨valid, sound, taken⟩

theorem runTraced (overflow : Overflow) (events : List Event)
    (seen : ∀ block ∈ proxy.held overflow events, block ∈ blocks) :
    Traced blocks (proxy.run overflow events) := by
  induction events generalizing proxy with
  | nil => exact traced
  | cons event rest ih =>
    have now : ∀ block ∈ proxy.node.active.blocks, block ∈ blocks := fun block member =>
      seen block (heldFirst overflow proxy (event :: rest) block member)
    have later : ∀ block ∈ (proxy.step overflow event).held overflow rest, block ∈ blocks :=
      fun block member => seen block (List.mem_append_right _ member)
    exact ih (stepTraced traced overflow now event) later

theorem idleMeets (idle : proxy.Idle) {last : CompactBlock}
    (tip : proxy.store.window.blocks.getLast? = some last) : Beside proxy.node.active last := by
  obtain ⟨ended, kept⟩ := idleOk.mp idle
  obtain ⟨bounded, _⟩ := (SimChain.fetchedOk traced.valid).mp ended
  obtain ⟨_, beyond⟩ := Window.lastHeight traced.sound tip
  have asked : proxy.node.fetched last.height = .ok (proxy.node.served? last.height) :=
    (SimChain.fetchedOk traced.valid).mpr ⟨by omega, rfl⟩
  have current := (Follower.movedEnded ended).mp kept last tip
  rw [asked] at current
  obtain ⟨full, served, same⟩ := Follower.currentOk.mp current
  exact ⟨full, (SimChain.servedOk.mp served).2, same⟩

theorem takenUnder (named : Named blocks)
    (active : ∀ block ∈ proxy.node.active.blocks, block ∈ blocks) :
    ∀ cached ∈ proxy.store.window.blocks, ∀ full ∈ proxy.node.active.blocks,
      full.hash.val = cached.hash →
        ∃ old ∈ blocks, old.header = full.header ∧ old.compact = .ok cached := by
  intro cached inWindow full inChain same
  obtain ⟨old, seen, ok⟩ := traced.taken cached inWindow
  obtain ⟨_, hash, _⟩ := Block.compactOk ok
  have equal : old.hash = full.hash := Subtype.ext (hash.symm.trans same.symm)
  exact ⟨old, seen, named.apart old seen full (active full inChain) equal, ok⟩

/- The chain's first block names no block at all, so the window cannot go on below it. -/
theorem firstNamesNone (named : Named blocks) {full : Block}
    (first : proxy.node.active.blocks[0]? = some full) :
    ∀ cached ∈ proxy.store.window.blocks, cached.hash ≠ full.header.prev.val := by
  intro cached inWindow same
  obtain ⟨old, seen, ok⟩ := traced.taken cached inWindow
  rw [traced.valid.linked.first full first, (Block.compactOk ok).2.1] at same
  exact named.nonzero old seen (Subtype.ext same)

theorem tracedAgrees (named : Named blocks)
    (active : ∀ block ∈ proxy.node.active.blocks, block ∈ blocks) (idle : proxy.Idle)
    {height : Nat} {cached : CompactBlock}
    (found : proxy.store.window.get? height = some cached) :
    ∃ block old, proxy.node.block? height = some block ∧ old ∈ blocks ∧
      old.header = block.header ∧ old.height = block.height ∧ old.compact = .ok cached := by
  obtain ⟨above, position⟩ := Window.getOk.mp found
  have member := List.mem_of_getElem? position
  have tip := List.getLast?_eq_some_getLast (List.ne_nil_of_mem member)
  have parents : ∀ other ∈ proxy.store.window.blocks, ∀ full ∈ proxy.node.active.blocks,
      full.hash.val = other.hash → other.prevHash = full.header.prev.val := by
    intro other inWindow full inChain same
    obtain ⟨old, _, header, ok⟩ := takenUnder traced named active other inWindow full inChain same
    rw [← header]
    exact (Block.compactOk ok).2.2
  have beside := Window.allBeside traced.sound traced.valid.linked.next
    (fun _ _ first => firstNamesNone traced named first) parents tip (idleMeets traced idle tip)
  obtain ⟨full, there, same⟩ := beside cached member
  obtain ⟨reached, place⟩ := Segment.blockAt.mp there
  obtain ⟨old, seen, header, ok⟩ :=
    takenUnder traced named active cached member full (List.mem_of_getElem? place) same
  have own : cached.height = height := by
    rw [traced.sound.heights _ cached position]
    omega
  have declared : full.height = height := by
    rw [traced.valid.sound.heights _ full place]
    omega
  rw [own] at there
  refine ⟨full, old, there, seen, header, ?_, ok⟩
  rw [declared, ← own, (Block.compactOk ok).1]

end

theorem idleAgrees (overflow : Overflow) (first poll interval : Nat) (events : List Event)
    (named : Named ((fresh first poll interval).held overflow events))
    (idle : Idle ((fresh first poll interval).run overflow events)) {height : Nat}
    {cached : CompactBlock}
    (found : ((fresh first poll interval).run overflow events).store.window.get? height =
      some cached) :
    ∃ block compacted,
      ((fresh first poll interval).run overflow events).node.block? height = some block ∧
      block.compact = .ok compacted ∧
      cached = { compacted with transactions := cached.transactions } ∧
      ((∀ old ∈ (fresh first poll interval).held overflow events,
          old.header = block.header → old.transactions = block.transactions) →
        cached = compacted) := by
  have traced := runTraced (freshTraced _ first poll interval) overflow events fun _ seen => seen
  obtain ⟨block, old, there, seen, header, height, ok⟩ :=
    tracedAgrees traced named (heldLast overflow _ events) idle found
  obtain ⟨_, position⟩ := Segment.blockAt.mp there
  obtain ⟨compacted, own⟩ := Block.compactTotal
    (traced.valid.sound.wellFormed block (List.mem_of_getElem? position))
  refine ⟨block, compacted, there, own, Block.compactLike header height ok own, ?_⟩
  intro unchanged
  have same : old = block := by
    have txs := unchanged old seen header
    obtain ⟨_, _, _⟩ := old
    obtain ⟨_, _, _⟩ := block
    exact (Block.mk.injEq ..).mpr ⟨header, height, txs⟩
  rw [same, own] at ok
  exact (Except.ok.inj ok).symm

section
variable {chain : SimChain} (valid : chain.Valid) {block : Block} {cached : CompactBlock}
include valid

theorem nextTaken {window : Window} (bounded : window.next ≤ greatest64)
    (served : chain.served? window.next = some block) (ok : block.compact = .ok cached)
    (follows : ∀ last, window.blocks.getLast? = some last → last.hash = block.header.prev.val) :
    (Follower.moved chain.fetched window).2 =
      { window with blocks := window.blocks ++ [cached] } := by
  have given : chain.fetched window.next = .ok (some block) :=
    (SimChain.fetchedOk valid).mpr ⟨bounded, served⟩
  obtain ⟨height, _, prev⟩ := Block.compactOk ok
  have declared : cached.height = window.next :=
    height.trans (SimChain.servedHeight valid served)
  refine Follower.movedTakes given ok (Window.extendsOk.mpr ⟨declared, fun last tip => ?_⟩)
  rw [prev]
  exact follows last tip

theorem turnTaken (overflow : Overflow) {proxy : SimProxy} {window : Window}
    (node : proxy.node = chain) (has : proxy.store.window = window)
    (bounded : window.next ≤ greatest64) (served : chain.served? window.next = some block)
    (ok : block.compact = .ok cached)
    (follows : ∀ last, window.blocks.getLast? = some last → last.hash = block.header.prev.val) :
    (proxy.step overflow .turn).node = chain ∧ (proxy.step overflow .turn).store.window =
      { window with blocks := window.blocks ++ [cached] } := by
  obtain ⟨activity, turned⟩ := turnFollowed proxy
  rw [step, turned]
  refine ⟨node, ?_⟩
  dsimp only
  rw [node, has, nextTaken valid bounded served ok follows]

theorem twoTurnsTaken (overflow : Overflow) {proxy : SimProxy} {start : Nat} {tip : Block}
    {second : CompactBlock} (node : proxy.node = chain)
    (window : proxy.store.window = .startingAt start) (bounded : start < greatest64)
    (served : chain.served? start = some block) (ok : block.compact = .ok cached)
    (servedTip : chain.served? (start + 1) = some tip) (tipOk : tip.compact = .ok second)
    (follows : tip.header.prev = block.hash) :
    (proxy.run overflow [.turn, .turn]).node = chain ∧
    (proxy.run overflow [.turn, .turn]).store.window = ⟨start, [cached, second]⟩ ∧
    ∀ held ∈ proxy.held overflow [.turn, .turn], held ∈ chain.active.blocks := by
  obtain ⟨onceNode, onceWindow⟩ := turnTaken valid overflow node window (Nat.le_of_lt bounded)
    served ok fun _ found => by cases found
  obtain ⟨twiceNode, twiceWindow⟩ := turnTaken valid overflow onceNode onceWindow bounded servedTip
    tipOk fun last found => by
      cases found
      rw [follows]
      exact (Block.compactOk ok).2.1
  rw [runCons, runOne, heldCons, heldCons, heldNil, node, onceNode, twiceNode]
  refine ⟨rfl, twiceWindow, fun held member => ?_⟩
  simpa using member

theorem sameHashIdle {proxy : SimProxy} (node : proxy.node = chain)
    (tip : proxy.store.window.blocks.getLast? = some cached)
    (next : proxy.store.window.next = cached.height + 1) (bounded : cached.height < greatest64)
    (ended : chain.served? (cached.height + 1) = none)
    (served : chain.served? cached.height = some block) (same : block.hash.val = cached.hash) :
    proxy.Idle := by
  have last : chain.fetched proxy.store.window.next = .ok none := by
    rw [next]
    exact (SimChain.fetchedOk valid).mpr ⟨bounded, ended⟩
  rw [idleOk, node]
  refine ⟨last, (Follower.movedEnded last).mpr fun other isTip => ?_⟩
  cases tip.symm.trans isTip
  rw [(SimChain.fetchedOk valid).mpr ⟨Nat.le_of_lt bounded, served⟩]
  exact Follower.currentOk.mpr ⟨block, rfl, same⟩

end

theorem begun : ∃ proxy : SimProxy,
    (fresh 1 2000 2000).step .ends (.reset 1 "c2d6d0b4" "regtest") = proxy ∧
    proxy.node = SimChain.started 1 "c2d6d0b4" "regtest" ∧
    proxy.store.window = .startingAt 1 := ⟨_, rfl, rfl, rfl⟩

def shortCoinbase (height : Nat) : Bytes :=
  [1, 0, 0, 0, 1] ++ List.replicate 36 0 ++ [1, UInt8.ofNat (0x50 + height)] ++ List.replicate 9 0

def shortBlock (height : Nat) : Block where
  header := ⟨4, Bytes32.zero, Bytes32.zero, Bytes32.zero, 1, 0, Bytes32.zero, []⟩
  height := height
  transactions := [⟨doubleSha256 (shortCoinbase height), shortCoinbase height⟩]

def shortTip : Block := (shortBlock 2).withPrev (shortBlock 1).hash

def shortStage : Event := .stageTexts ([(shortBlock 1).write, (shortBlock 2).write].map Hex.encode)

def shortRun : List Event :=
  [.reset 1 "c2d6d0b4" "regtest", shortStage, .applyStaged (2 : Nat), .turn, .turn]

def shortStaged : SimChain :=
  ((SimChain.started 1 "c2d6d0b4" "regtest").stageBlocks
    [(shortBlock 1).write, (shortBlock 2).write]).2

def shortChain : SimChain := shortStaged.run .ends [.commit 2]

theorem shortBegun : ∃ proxy : SimProxy,
    (fresh 1 2000 2000).run .ends shortRun = proxy.run .ends [.turn, .turn] ∧
    (fresh 1 2000 2000).held .ends shortRun = proxy.held .ends [.turn, .turn] ∧
    proxy.node = shortChain ∧ proxy.store.window = .startingAt 1 := by
  obtain ⟨proxy, begins, emptyChain, emptyWindow⟩ := begun
  have staged : proxy.step .ends shortStage = { proxy with node := shortStaged } := by
    rw [shortStage, stageTextsStep, emptyChain]
    rfl
  have none : (fresh 1 2000 2000).node.active.blocks = [] ∧
      (SimChain.started 1 "c2d6d0b4" "regtest").active.blocks = [] ∧
      shortStaged.active.blocks = [] := ⟨rfl, rfl, rfl⟩
  obtain ⟨store, node⟩ := applyStagedStep .ends { proxy with node := shortStaged } 2
  refine ⟨_, ?_, ?_, node, (congrArg Store.window store).trans emptyWindow⟩
  · rw [shortRun, runCons, begins, runCons, runCons, staged]
  · rw [shortRun, heldCons, heldCons, begins, heldCons, staged, emptyChain, none.1, none.2.1,
      none.2.2, List.nil_append, List.nil_append, List.nil_append]

theorem pairCommitted {one two : Block} (atOne : one.height = 1) (atTwo : two.height = 2) :
    let chain := ((SimChain.started 1 "c2d6d0b4" "regtest").withStaged [one, two] []).run .ends
      [.commit 2]
    let first := one.withPrev Bytes32.zero
    chain.latest = some 2 ∧ chain.active = ⟨1, [first, two.withPrev first.hash]⟩ := by
  obtain ⟨_, _, _⟩ := one
  obtain ⟨_, _, _⟩ := two
  cases atOne
  cases atTwo
  exact ⟨rfl, rfl⟩

theorem shortCommitted : shortChain.latest = some 2 ∧
    shortChain.active = ⟨1, [shortBlock 1, shortTip]⟩ := by
  have read : SimChain.readable [(shortBlock 1).write, (shortBlock 2).write] =
      [shortBlock 1, shortBlock 2] := by rfl
  rw [shortChain, shortStaged, SimChain.stageBlocksAdds rfl, read]
  exact pairCommitted rfl rfl

theorem shortApart :
    (∀ block ∈ shortChain.active.blocks, ∀ other ∈ shortChain.active.blocks,
      block.hash = other.hash → block = other) ∧
    ∀ block ∈ shortChain.active.blocks, block.hash ≠ Bytes32.zero := by
  have distinct : (Bytes32.zero :: [shortBlock 1, shortTip].map Block.hash).Nodup := by
    decide +kernel
  rw [shortCommitted.2]
  generalize shortBlock 1 = one at *
  generalize shortTip = top at *
  obtain ⟨nonzero, apart⟩ := List.nodup_cons.mp distinct
  refine ⟨fun block here other there same => List.inj_on_of_nodup_map apart here there same,
    fun block here zero => nonzero ?_⟩
  rw [← zero]
  exact List.mem_map_of_mem here

/- The follower takes the second block for its link to the first; at rest it asks for the second
alone. -/
theorem shortBlocksCached : ∃ first second block tip,
    ((fresh 1 2000 2000).run .ends shortRun).store.window = ⟨1, [first, second]⟩ ∧
    ((fresh 1 2000 2000).run .ends shortRun).node.block? 1 = some block ∧
    ((fresh 1 2000 2000).run .ends shortRun).node.block? 2 = some tip ∧
    block.compact = .ok first ∧ tip.compact = .ok second := by
  obtain ⟨latest, active⟩ := shortCommitted
  have served : shortChain.served? 1 = some (shortBlock 1) := by
    rw [SimChain.served?, latest, SimChain.block?, active]
    rfl
  have servedTip : shortChain.served? 2 = some shortTip := by
    rw [SimChain.served?, latest, SimChain.block?, active]
    rfl
  have ended : shortChain.served? 3 = none := by
    rw [SimChain.served?, latest]
    rfl
  have follows : shortTip.header.prev = (shortBlock 1).hash := rfl
  have height : shortTip.height = 2 := rfl
  have valid : shortChain.Valid := SimChain.commitValid
    (SimChain.stageBlocksValid (SimChain.startedValid 1 "c2d6d0b4" "regtest") _) .ends 2
  obtain ⟨apart, nonzero⟩ := shortApart
  obtain ⟨middle, runs, holds, node, window⟩ := shortBegun
  generalize shortBlock 1 = one at *
  generalize shortTip = top at *
  generalize shortChain = chain at *
  obtain ⟨first, ok⟩ := Block.compactTotal (SimChain.validServed valid served)
  obtain ⟨second, topOk⟩ := Block.compactTotal (SimChain.validServed valid servedTip)
  obtain ⟨after, left, own⟩ :=
    twoTurnsTaken valid .ends node window (by decide) served ok servedTip topOk follows
  rw [← runs] at after left
  rw [← holds] at own
  have topHeight : second.height = 2 := (Block.compactOk topOk).1.trans height
  have idle : Idle ((fresh 1 2000 2000).run .ends shortRun) :=
    sameHashIdle valid after (by rw [left]; rfl) (by rw [left, topHeight]; rfl)
      (by rw [topHeight]; decide) (by rw [topHeight]; exact ended)
      (by rw [topHeight]; exact servedTip) (Block.compactOk topOk).2.1.symm
  have named : Named ((fresh 1 2000 2000).held .ends shortRun) :=
    ⟨fun block here other there same =>
        congrArg Block.header (apart block (own block here) other (own other there) same),
      fun block here => nonzero block (own block here)⟩
  have agrees : ∀ height cached,
      ((fresh 1 2000 2000).run .ends shortRun).store.window.get? height = some cached →
        ∃ block, ((fresh 1 2000 2000).run .ends shortRun).node.block? height = some block ∧
          block.compact = .ok cached := by
    intro height cached found
    obtain ⟨block, compacted, there, compacts, _, same⟩ :=
      idleAgrees .ends 1 2000 2000 shortRun named idle found
    refine ⟨block, there, ?_⟩
    rw [compacts, same]
    intro old here header
    obtain ⟨_, position⟩ := Segment.blockAt.mp there
    have active := own block (heldLast .ends _ shortRun block (List.mem_of_getElem? position))
    have hashes : old.hash = block.hash := by rw [Block.hash, Block.hash, header]
    rw [apart old (own old here) block active hashes]
  obtain ⟨block, there, compacts⟩ := agrees 1 first (by rw [left]; rfl)
  obtain ⟨tip, tipThere, tipCompacts⟩ := agrees 2 second (by rw [left]; rfl)
  exact ⟨first, second, block, tip, left, there, tipThere, compacts, tipCompacts⟩

def refill (height : Nat) (tx : Bytes) : List Event :=
  [.stageFiller height 0 (1 : Nat), .stageTxs [(height, tx)], .applyStaged height]

def refilled (chain : SimChain) (height : Nat) (tx : Bytes) : SimChain :=
  chain.run .ends [.stageFiller height 0 1, .stageTx height tx, .commit height]

theorem refillRun (proxy : SimProxy) (height : Nat) (tx : Bytes) :
    (proxy.run .ends (refill height tx)).store = proxy.store ∧
      (proxy.run .ends (refill height tx)).node = refilled proxy.node height tx := by
  rw [refill, runCons, runCons, runOne, stageFillerStep]
  obtain ⟨store, node⟩ := applyStagedStep .ends (step .ends { proxy with
    node := proxy.node.run .ends [.stageFiller height 0 1] } (.stageTxs [(height, tx)])) height
  rw [store, node]
  refine ⟨rfl, ?_⟩
  show SimChain.run .ends (SimChain.stageTxs _ [(height, tx)]).2 [.commit height] = _
  rw [stageTxAlone .ends]
  rfl

theorem refilledTwice (proxy : SimProxy) (height : Nat) (tx other : Bytes) :
    let before := refilled proxy.node height tx
    let after := proxy.run .ends (refill height tx ++ .turn :: refill height other)
    after.node = refilled before height other ∧
      after.store.window = (Follower.moved before.fetched proxy.store.window).2 := by
  intro before after
  obtain ⟨firstStore, firstNode⟩ := refillRun proxy height tx
  obtain ⟨activity, turned⟩ := turnFollowed (proxy.run .ends (refill height tx))
  obtain ⟨lastStore, lastNode⟩ :=
    refillRun ((proxy.run .ends (refill height tx)).step .ends .turn) height other
  have runs : after = ((proxy.run .ends (refill height tx)).step .ends .turn).run .ends
      (refill height other) := by
    rw [← runCons, ← runAppend]
  rw [runs, lastNode, lastStore, step, turned, firstStore, firstNode]
  exact ⟨rfl, rfl⟩

theorem refilledValid {chain : SimChain} (valid : chain.Valid) (height : Nat) (tx : Bytes) :
    (refilled chain height tx).Valid := SimChain.runValid valid .ends _

def shieldedTx : Bytes :=
  [0x04, 0x00, 0x00, 0x80, 0x85, 0x20, 0x2f, 0x89] ++ List.replicate 19 0 ++ [0x01, 0x14] ++
    List.replicate (31 + 32 + 32 + 580 + 80 + 192 + 1 + 64) 0

def shieldedChain : SimChain := refilled (.started 1 "c2d6d0b4" "regtest") 1 shieldedTx

def replacedChain : SimChain := refilled shieldedChain 1 (Filler.coinbase 700)

def replaced : List Event :=
  .reset 1 "c2d6d0b4" "regtest" ::
    (refill 1 shieldedTx ++ .turn :: refill 1 (Filler.coinbase 700))

def shieldedCount (block : Block) : Option Nat :=
  block.compact.toOption.map fun compacted => compacted.transactions.length

/- Both blocks have the header of a filler block that got one transaction, whichever it was. -/
theorem replacedStillCached :
    Idle ((fresh 1 2000 2000).run .ends replaced) ∧ ∃ cached block,
      ((fresh 1 2000 2000).run .ends replaced).store.window.get? 1 = some cached ∧
      ((fresh 1 2000 2000).run .ends replaced).node.block? 1 = some block ∧
      block.compact ≠ .ok cached := by
  have shielded : (shieldedChain.served? 1).map (fun block => (block.header, shieldedCount block)) =
      some ((Filler.header 0 1).bumped, some 1) := by decide +kernel
  have plain : (replacedChain.served? 1).map (fun block => (block.header, shieldedCount block)) =
      some ((Filler.header 0 1).bumped, some 0) := by decide +kernel
  have ended : (replacedChain.served? 2).isNone := by decide +kernel
  obtain ⟨old, oldServed, oldParts⟩ := Option.map_eq_some_iff.mp shielded
  obtain ⟨oldHeader, oldCount⟩ := Prod.mk.inj oldParts
  obtain ⟨block, served, parts⟩ := Option.map_eq_some_iff.mp plain
  obtain ⟨header, count⟩ := Prod.mk.inj parts
  have oldValid : shieldedChain.Valid :=
    refilledValid (SimChain.startedValid 1 "c2d6d0b4" "regtest") 1 shieldedTx
  have valid : replacedChain.Valid := refilledValid oldValid 1 (Filler.coinbase 700)
  obtain ⟨cached, ok⟩ := Block.compactTotal (SimChain.validServed oldValid oldServed)
  obtain ⟨declared, hash, _⟩ := Block.compactOk ok
  have atOne : cached.height = 1 := declared.trans (SimChain.servedHeight oldValid oldServed)
  have sameHash : block.hash.val = cached.hash := by
    rw [hash, Block.hash, Block.hash, header, oldHeader]
  obtain ⟨proxy, begins, emptyChain, emptyWindow⟩ := begun
  obtain ⟨node, window⟩ := refilledTwice proxy 1 shieldedTx (Filler.coinbase 700)
  rw [← begins, ← runCons, ← replaced, begins, emptyChain, ← shieldedChain] at node window
  have taken : (Follower.moved shieldedChain.fetched (.startingAt 1)).2 = ⟨1, [cached]⟩ :=
    nextTaken oldValid (by decide) oldServed ok fun _ found => by cases found
  rw [emptyWindow, taken] at window
  rw [← replacedChain] at node
  have idle : Idle ((fresh 1 2000 2000).run .ends replaced) :=
    sameHashIdle valid node (by rw [window]; rfl) (by rw [window, atOne]; rfl)
      (by rw [atOne]; decide) (by rw [atOne]; exact Option.isNone_iff_eq_none.mp ended)
      (by rw [atOne]; exact served) sameHash
  refine ⟨idle, cached, block, ?_, ?_, ?_⟩
  · rw [window]
    rfl
  · rw [node]
    exact (SimChain.servedOk.mp served).2
  · intro same
    rw [shieldedCount, ok] at oldCount
    rw [shieldedCount, same] at count
    exact absurd (oldCount.symm.trans count) (by decide)

end WalletProxy.SimProxy
