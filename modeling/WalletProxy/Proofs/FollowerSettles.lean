import Mathlib.Logic.Function.Iterate
import WalletProxy.Proofs.FollowerTurn
import WalletProxy.Proofs.Placement
import WalletProxy.Proofs.ServedChain
import WalletProxy.Proofs.WindowBesideChain

/-! A follower of a chain that stands still. Whatever the window holds at first, turn after turn
drops what is not of the chain, then takes over the rest of the chain, and then changes nothing
any more. -/
namespace WalletProxy

namespace Window

def Copies (chain : Segment) (window : Window) : Prop :=
  ∀ block ∈ window.blocks, ∃ full, chain.block? block.height = some full ∧
    full.compact = .ok block

def Apart (chain : Segment) (window : Window) : Prop :=
  ∀ block ∈ window.blocks, ∀ full ∈ chain.blocks, ∀ compacted, full.compact = .ok compacted →
    compacted.hash = block.hash → compacted = block

end Window

namespace Follower
open Window (Beside Copies Apart)

def carried (chain : Segment) (window : Window) : Window :=
  (moved (fun height => .ok (chain.block? height)) window).2

section
variable {chain : Segment} (sound : chain.Sound) (joined : chain.Joined) {window : Window}
  (linked : window.Sound)
include sound joined linked

theorem sameTipCopies (reaches : chain.start ≤ window.first) (apart : Apart chain window)
    {last : CompactBlock} (tip : window.blocks.getLast? = some last) (meets : Beside chain last) :
    Copies chain window := by
  have identified : ∀ block ∈ window.blocks, ∀ full ∈ chain.blocks,
      full.hash.val = block.hash → full.compact = .ok block := by
    intro block member full held same
    obtain ⟨compacted, ok⟩ := Block.compactTotal (sound.wellFormed full held)
    obtain ⟨_, hash, _⟩ := Block.compactOk ok
    rw [ok, apart block member full held compacted ok (hash.trans same)]
  have parents : ∀ block ∈ window.blocks, ∀ full ∈ chain.blocks, full.hash.val = block.hash →
      block.prevHash = full.header.prev.val := fun block member full held same =>
    (Block.compactOk (identified block member full held same)).2.2
  have beside := Window.allBeside linked joined (fun above => by omega) parents tip meets
  intro block member
  obtain ⟨full, there, same⟩ := beside block member
  obtain ⟨_, position⟩ := Segment.blockAt.mp there
  exact ⟨full, there, identified block member full (List.mem_of_getElem? position) same⟩

theorem staleDropped (reaches : chain.start ≤ window.first) {last : CompactBlock}
    (tip : window.blocks.getLast? = some last) (stale : ¬ Beside chain last) :
    carried chain window = window.pop.2 := by
  obtain ⟨above, height⟩ := Window.lastHeight linked tip
  have nonempty : window.blocks.isEmpty = false := by
    cases blocks : window.blocks with
    | nil =>
      rw [blocks] at tip
      contradiction
    | cons first rest => rfl
  cases next : chain.block? window.next with
  | none =>
    -- The chain ends below the window's end: the last block is asked for, and is not found.
    have named : window.tip? = some (last.height, last.hash) :=
      Window.tipOk.mpr ⟨last, tip, rfl, rfl⟩
    have gone : isStale last.hash (.ok (chain.block? last.height)) = true := by
      rw [← Bool.not_eq_false]
      exact fun current => stale (currentOk.mp current)
    simp only [carried, moved, next, verified, named, gone, if_true]
  | some full =>
    -- The next block names a predecessor that is not the last block.
    obtain ⟨within, position⟩ := Segment.blockAt.mp next
    obtain ⟨compacted, ok⟩ :=
      Block.compactTotal (sound.wellFormed full (List.mem_of_getElem? position))
    obtain ⟨_, _, named⟩ := Block.compactOk ok
    obtain ⟨inside, _⟩ := List.getElem?_eq_some_iff.mp position
    have under : last.height - chain.start < chain.blocks.length := by omega
    have below := List.getElem?_eq_getElem under
    have parent : full.header.prev = chain.blocks[last.height - chain.start].hash := by
      have place : window.next - chain.start = last.height - chain.start + 1 := by omega
      rw [place] at position
      exact joined _ _ full below position
    have refused : window.extends? compacted = false := by
      rw [Bool.eq_false_iff]
      intro follows
      obtain ⟨_, joins⟩ := Window.extendsOk.mp follows
      refine stale ⟨_, Segment.blockAt.mpr ⟨by omega, below⟩, ?_⟩
      rw [joins last tip, named, parent]
    exact congrArg Prod.snd (movedBack (congrArg Except.ok next) ok refused nonempty)

theorem copiesGrow (copies : Copies chain window) {full : Block}
    (next : chain.block? window.next = some full) :
    ∃ compacted, full.compact = .ok compacted ∧ window.extends? compacted = true ∧
      compacted.height = window.next := by
  obtain ⟨within, position⟩ := Segment.blockAt.mp next
  obtain ⟨compacted, ok⟩ :=
    Block.compactTotal (sound.wellFormed full (List.mem_of_getElem? position))
  obtain ⟨height, _, named⟩ := Block.compactOk ok
  have declared : compacted.height = window.next := by
    rw [height, sound.heights _ full position]
    omega
  refine ⟨compacted, ok, Window.extendsOk.mpr ⟨declared, ?_⟩, declared⟩
  intro last tip
  obtain ⟨above, beyond⟩ := Window.lastHeight linked tip
  obtain ⟨lower, there, own⟩ := copies last (List.mem_of_getLast? tip)
  obtain ⟨_, hash, _⟩ := Block.compactOk own
  obtain ⟨_, below⟩ := Segment.blockAt.mp there
  have place : window.next - chain.start = last.height - chain.start + 1 := by omega
  rw [place] at position
  rw [hash, named, joined _ lower full below position]

end

section
variable {chain : Segment} {window : Window}

theorem carriedNext {full : Block} {compacted : CompactBlock}
    (next : chain.block? window.next = some full) (ok : full.compact = .ok compacted)
    (follows : window.extends? compacted = true) :
    carried chain window = { window with blocks := window.blocks ++ [compacted] } :=
  movedTakes (congrArg Except.ok next) ok follows

theorem copiesRest (copies : Copies chain window) (ended : chain.block? window.next = none) :
    carried chain window = window := by
  refine (movedEnded (congrArg Except.ok ended)).mpr ?_
  intro last tip
  obtain ⟨full, there, own⟩ := copies last (List.mem_of_getLast? tip)
  obtain ⟨_, same, _⟩ := Block.compactOk own
  exact currentOk.mpr ⟨full, there, same.symm⟩

theorem popCopied (apart : Apart chain window) : Apart chain window.pop.2 := fun block member =>
  apart block ((List.dropLast_sublist _).subset member)

end

/- Every turn drops a stale last block, until none is left or the last one is of the chain. -/
theorem staleLost {chain : Segment} (sound : chain.Sound) (joined : chain.Joined) :
    ∀ (size : Nat) (window : Window), window.blocks.length = size → window.Sound →
      chain.start ≤ window.first → Apart chain window →
      ∃ count, ((carried chain)^[count] window).Sound ∧
        ((carried chain)^[count] window).first = window.first ∧
        Copies chain ((carried chain)^[count] window) := by
  intro size
  induction size with
  | zero =>
    intro window count linked _ _
    have empty := List.length_eq_zero_iff.mp count
    exact ⟨0, linked, rfl, by simp [Copies, empty]⟩
  | succ size ih =>
    intro window count linked reaches apart
    have nonempty : window.blocks ≠ [] := by
      intro empty
      rw [empty] at count
      contradiction
    have tip := List.getLast?_eq_some_getLast nonempty
    by_cases meets : Beside chain (window.blocks.getLast nonempty)
    · exact ⟨0, linked, rfl, sameTipCopies sound joined linked reaches apart tip meets⟩
    · have dropped := staleDropped sound joined linked reaches tip meets
      have shorter : window.pop.2.blocks.length = size := by
        show window.blocks.dropLast.length = size
        rw [List.length_dropLast, count]
        rfl
      obtain ⟨turns, done⟩ :=
        ih window.pop.2 shorter (Window.popSound linked) reaches (popCopied apart)
      refine ⟨turns + 1, ?_⟩
      rw [Function.iterate_succ_apply, dropped]
      exact done

theorem restTaken {chain : Segment} (sound : chain.Sound) (joined : chain.Joined) :
    ∀ (missing : Nat) (window : Window), chain.stop - window.next = missing → window.Sound →
      chain.start ≤ window.first → Copies chain window →
      ∃ count, ((carried chain)^[count] window).first = window.first ∧
        Copies chain ((carried chain)^[count] window) ∧
        ((carried chain)^[count] window).Sound ∧
        chain.block? ((carried chain)^[count] window).next = none := by
  intro missing
  induction missing with
  | zero =>
    intro window none linked reaches copies
    exact ⟨0, rfl, copies, linked, Segment.noBlockAt.mpr (by right; show _ ≤ window.next; omega)⟩
  | succ missing ih =>
    intro window some linked reaches copies
    have present : chain.block? window.next ≠ none := by
      intro absent
      have outside := Segment.noBlockAt.mp absent
      unfold Window.next at outside some
      omega
    obtain ⟨full, next⟩ := Option.ne_none_iff_exists'.mp present
    obtain ⟨compacted, ok, follows, height⟩ :=
      copiesGrow sound joined linked copies next
    have more : Copies chain { window with blocks := window.blocks ++ [compacted] } :=
      List.forall_mem_append.mpr
        ⟨copies, List.forall_mem_singleton.mpr ⟨full, by rw [height]; exact next, ok⟩⟩
    have fewer : chain.stop -
        Window.next { window with blocks := window.blocks ++ [compacted] } = missing := by
      unfold Window.next at some
      show chain.stop - (window.first + (window.blocks ++ [compacted]).length) = missing
      rw [List.length_append, List.length_singleton]
      omega
    obtain ⟨turns, done⟩ := ih _ fewer (Window.extendedSound linked follows) reaches more
    refine ⟨turns + 1, ?_⟩
    rw [Function.iterate_succ_apply, carriedNext next ok follows]
    exact done

theorem settledGet {chain : Segment} {window : Window} (linked : window.Sound)
    (reaches : chain.start ≤ window.first) (copies : Copies chain window)
    (ended : chain.block? window.next = none) {height : Nat} (above : window.first ≤ height) :
    (window.get? height).map Except.ok = (chain.block? height).map Block.compact := by
  unfold Window.get?
  rw [if_pos above]
  rcases Nat.lt_or_ge (height - window.first) window.blocks.length with inside | beyond
  · have found := List.getElem?_eq_getElem inside
    obtain ⟨full, there, own⟩ := copies _ (List.mem_of_getElem? found)
    rw [linked.heights _ _ found, Nat.add_sub_cancel' above] at there
    rw [found, there, Option.map_some, Option.map_some, own]
  · have absent : chain.block? height = none := by
      have outside := Segment.noBlockAt.mp ended
      unfold Window.next at outside
      exact Segment.noBlockAt.mpr (by omega)
    rw [List.getElem?_eq_none beyond, absent]
    rfl

/-- A node that has just the blocks of one chain, and says of every other height that it has no
block there. -/
structure Serves {ν : Type} (answer : Call → ν → Reply × ν) (chain : Segment) : Prop where
  held : ∀ node height block, chain.block? height = some block → ∃ text,
    (answer (Node.blockCall height) node).1 = .ok (.text text) ∧ Hex.decode text = .ok block.write
  missing : ∀ node height, chain.block? height = none → ∃ text,
    (answer (Node.blockCall height) node).1 = .error (.reported NodeError.outOfRange text)

def turns {ν : Type} (answer : Call → ν → Reply × ν) : (count : Nat) → Store → ν → Store × ν
  | 0, store, node => (store, node)
  | count + 1, store, node =>
      let outcome := Job.run answer (turn (ι := Empty)) store node
      turns answer count outcome.store outcome.node

theorem turnsSteady {ν : Type} {answer : Call → ν → Reply × ν}
    {fetch : Nat → Except NodeError (Option Block)} (steady : Steady answer (fun _ => True) fetch)
    (count : Nat) (store : Store) (node : ν) :
    (turns answer count store node).1 =
      { store with window := (turned fetch)^[count] store.window } := by
  induction count generalizing store node with
  | zero => rfl
  | succ count ih =>
    obtain ⟨later, _, runs⟩ := turnRuns steady (trivial : (fun _ => True) node) store
    rw [turns, runs, ih, Function.iterate_succ_apply]
    rfl

section
variable {ν : Type} {answer : Call → ν → Reply × ν} {chain : Segment}

theorem servesSteady (serves : Serves answer chain) (sound : chain.Sound) :
    Steady answer (fun _ => True) fun height => .ok (chain.block? height) := by
  constructor
  · intro node height _
    trivial
  · intro node height _
    cases found : chain.block? height with
    | none =>
      obtain ⟨text, reply⟩ := serves.missing node height found
      rw [reply]
      rfl
    | some block =>
      obtain ⟨text, reply, decoded⟩ := serves.held node height block found
      obtain ⟨_, position⟩ := Segment.blockAt.mp found
      have good := sound.wellFormed block (List.mem_of_getElem? position)
      rw [reply]
      simp only [Node.blockOfReply, decoded, Block.ofBytesWrite good]

theorem turnsCarry (serves : Serves answer chain) (sound : chain.Sound) (count : Nat)
    (store : Store) (node : ν) :
    (turns answer count store node).1 =
      { store with window := (carried chain)^[count] store.window } :=
  turnsSteady (servesSteady serves sound) count store node

end

def holding (blocks : List Block) (call : Call) (node : Unit) : Reply × Unit :=
  match SimChain.firstText? call.params with
  | none => (.error (.unsupported call.method), node)
  | some text =>
      match blocks.find? fun block => toString block.height = text with
      | none => (.error (.reported NodeError.outOfRange "Block height out of range"), node)
      | some block => (.ok (.text (Hex.encode block.write)), node)

theorem decimalInj {height other : Nat} (same : toString height = toString other) :
    height = other := by
  have own := Unsigned.readDecimal (Nat.le_max_left height other)
  rw [same, Unsigned.readDecimal (Nat.le_max_right height other)] at own
  exact (Option.some.inj own).symm

theorem holdingFinds {chain : Segment} (sound : chain.Sound) (height : Nat) :
    (chain.blocks.find? fun block => toString block.height = toString height) =
      chain.block? height := by
  cases found : chain.blocks.find? fun block => toString block.height = toString height with
  | some block =>
    have named := List.find?_some found
    have own : block.height = height := decimalInj (of_decide_eq_true named)
    obtain ⟨index, position⟩ := List.mem_iff_getElem?.mp (List.mem_of_find?_eq_some found)
    have place := sound.heights index block position
    refine (Segment.blockAt.mpr ⟨by omega, ?_⟩).symm
    rw [← own, place, Nat.add_sub_cancel_left]
    exact position
  | none =>
    cases there : chain.block? height with
    | none => rfl
    | some block =>
      obtain ⟨reached, position⟩ := Segment.blockAt.mp there
      have own : block.height = height := by
        rw [sound.heights _ block position]
        omega
      have absent := List.find?_eq_none.mp found block (List.mem_of_getElem? position)
      rw [own] at absent
      simp at absent

theorem holdingServes {chain : Segment} (sound : chain.Sound) :
    Serves (holding chain.blocks) chain := by
  have asked : ∀ height, SimChain.firstText? (Node.blockCall height).params =
      some (toString height) := fun _ => rfl
  constructor
  · intro node height block there
    refine ⟨Hex.encode block.write, ?_, Hex.decodeEncoded _⟩
    simp only [holding, asked, holdingFinds sound, there]
  · intro node height absent
    refine ⟨"Block height out of range", ?_⟩
    simp only [holding, asked, holdingFinds sound, absent]

def twoBlockChain : Segment :=
  (SimChain.fresh.run .ends [.reset 1 "c2d6d0b4" "regtest", .stageFiller 1 0 2, .commit 2]).active

def staleBlock (height : Nat) (prevHash hash : Bytes) : CompactBlock :=
  ⟨1, height, hash, prevHash, 0, [], []⟩

def staleStore : Store where
  now := 0
  window := ⟨1, [staleBlock 1 [6] [7], staleBlock 2 [7] [8], staleBlock 3 [8] [9]]⟩
  mempool := .fresh 2000

end Follower

end WalletProxy
