import Mathlib.Data.List.TakeWhile
import WalletProxy.Proofs.HandlerRun
import WalletProxy.Proofs.ServedChain
import WalletProxy.Proofs.WindowBesideChain
import WalletProxy.Wallet.Blocks

/-! A range of heights as a stream, upward or downward: the copies of the blocks that the chain
serves, up to the first height at which it serves none. -/
namespace WalletProxy

namespace Wallet

def heightsBetween (start stop : Nat) : List Nat :=
  if start ≤ stop then List.range' start (stop - start + 1)
  else (List.range' stop (start - stop + 1)).reverse

def passed (step : Nat → Nat) : (left height : Nat) → List Nat
  | 0, _ => []
  | left + 1, height => height :: passed step left (step height)

theorem passedUp (left height : Nat) : passed (· + 1) left height = List.range' height left := by
  induction left generalizing height with
  | zero => rfl
  | succ left ih => rw [passed, ih, List.range'_succ]

theorem passedDown (left lowest : Nat) :
    passed (· - 1) (left + 1) (lowest + left) = (List.range' lowest (left + 1)).reverse := by
  induction left with
  | zero => rfl
  | succ left ih =>
    rw [passed, ← Nat.add_assoc, Nat.add_sub_cancel, ih, List.range'_1_concat (n := left + 1),
      List.reverse_append]
    rfl

theorem walkIs (step : Nat → Nat) (left height : Nat) :
    walk step left height = Stream.emitEach compactBlock (passed step left height) := by
  induction left generalizing height with
  | zero => rfl
  | succ left ih =>
    rw [walk, passed, Stream.emitEach]
    refine congrArg (Job.bind (compactBlock height).run) (funext fun result => ?_)
    cases result with
    | error status => rfl
    | ok block =>
      simp only [ih]

theorem walkBetweenIs (start stop : Nat) :
    walkBetween start stop = Stream.emitEach compactBlock (heightsBetween start stop) := by
  unfold walkBetween heightsBetween
  split
  · rw [walkIs, passedUp]
  · have split : start = stop + (start - stop) := by omega
    rw [walkIs, ← passedDown, ← split]

theorem heightsCount (start stop : Nat) :
    (heightsBetween start stop).length = ((start : Int) - stop).natAbs + 1 := by
  unfold heightsBetween
  split
  · rw [List.length_range']
    omega
  · rw [List.length_reverse, List.length_range']
    omega

theorem risingAt {start stop index height : Nat} (upward : start ≤ stop)
    (found : (heightsBetween start stop)[index]? = some height) : height = start + index := by
  rw [heightsBetween, if_pos upward] at found
  obtain ⟨inside, same⟩ := List.getElem?_eq_some_iff.mp found
  rw [← same, List.getElem_range', Nat.one_mul]

theorem betweenEnds {start stop height : Nat} (member : height ∈ heightsBetween start stop) :
    height ≤ max start stop := by
  unfold heightsBetween at member
  split at member
  · rw [List.mem_range'_1] at member
    omega
  · rw [List.mem_reverse, List.mem_range'_1] at member
    omega

end Wallet

namespace SimChain

def Copied (chain : SimChain) (window : Window) : Prop :=
  ∀ height block, window.get? height = some block →
    ∃ full, chain.served? height = some full ∧ full.compact = .ok block

def copy? (chain : SimChain) (height : Nat) : Option CompactBlock :=
  (chain.served? height).bind fun full => full.compact.toOption

theorem copyOk {chain : SimChain} {height : Nat} {block : CompactBlock} :
    chain.copy? height = some block ↔
      ∃ full, chain.served? height = some full ∧ full.compact = .ok block := by
  unfold copy?
  rw [Option.bind_eq_some_iff]
  refine exists_congr fun full => and_congr_right fun _ => ?_
  cases full.compact with
  | error fault => simp [Except.toOption]
  | ok copied => simp [Except.toOption]

theorem copyTotal {chain : SimChain} (valid : chain.Valid) {height : Nat} {full : Block}
    (served : chain.served? height = some full) : ∃ block, chain.copy? height = some block := by
  obtain ⟨block, ok⟩ := Block.compactTotal (validServed valid served)
  exact ⟨block, copyOk.mpr ⟨full, served, ok⟩⟩

theorem copyThere {chain : SimChain} (valid : chain.Valid) {tip : Nat}
    (latest : chain.latest = some tip) {height : Nat} :
    (chain.copy? height).isSome ↔ chain.active.start ≤ height ∧
      height < chain.active.start + chain.active.blocks.length ∧ height ≤ tip := by
  rw [Option.isSome_iff_exists]
  constructor
  · rintro ⟨block, copy⟩
    obtain ⟨full, served, _⟩ := copyOk.mp copy
    obtain ⟨⟨reached, known, low⟩, found⟩ := servedOk.mp served
    cases Option.some.inj (latest.symm.trans known)
    obtain ⟨above, under⟩ := blockThere.mp ⟨full, found⟩
    exact ⟨above, under, low⟩
  · rintro ⟨above, under, low⟩
    obtain ⟨full, found⟩ := blockThere.mpr ⟨above, under⟩
    exact copyTotal valid (servedOk.mpr ⟨⟨tip, latest, low⟩, found⟩)

theorem compactRun {ι : Type} {chain : SimChain} (valid : chain.Valid) {store : Store}
    (copied : chain.Copied store.window) {height : Nat} (bounded : height ≤ Unsigned.greatest64) :
    Job.run answer (Wallet.compactBlock (ι := ι) height).run store chain =
      ⟨(chain.copy? height).elim (.error ⟨.notFound, s!"block {height} not found"⟩) .ok, [], store,
        chain⟩ := by
  have looked : Job.run answer (Wallet.Handler.look (ι := ι)
      fun store => store.window.get? height).run store chain =
        ⟨.ok (store.window.get? height), [], store, chain⟩ := rfl
  unfold Wallet.compactBlock
  rw [Wallet.Handler.thenRun _ looked]
  cases held : store.window.get? height with
  | some block =>
    rw [copyOk.mpr (copied height block held)]
    rfl
  | none =>
    have fetched : Job.run answer (Wallet.Handler.fetchBlock (ι := ι) height).run store chain =
        ⟨.ok (chain.served? height), [], store, chain⟩ := by
      show Job.run answer (Job.bind _ _) store chain = _
      rw [Job.runBind, fetchServed valid bounded]
      rfl
    dsimp only
    rw [Wallet.Handler.thenRun _ fetched]
    cases served : chain.served? height with
    | none =>
      have absent : chain.copy? height = none := by rw [copy?, served]; rfl
      rw [absent]
      rfl
    | some full =>
      obtain ⟨block, copy⟩ := copyTotal valid served
      obtain ⟨_, same, ok⟩ := copyOk.mp copy
      cases Option.some.inj (served.symm.trans same)
      rw [copy]
      show Job.run answer (Wallet.Handler.ofExcept _ full.compact).run store chain = _
      rw [ok]
      rfl

theorem copiesLinked {chain : SimChain} (valid : chain.Valid) {height : Nat}
    {below above : CompactBlock} (lower : chain.copy? height = some below)
    (upper : chain.copy? (height + 1) = some above) :
    above.height = below.height + 1 ∧ above.prevHash = below.hash := by
  obtain ⟨parent, served, ok⟩ := copyOk.mp lower
  obtain ⟨child, next, fine⟩ := copyOk.mp upper
  obtain ⟨parentHeight, parentHash, _⟩ := Block.compactOk ok
  obtain ⟨childHeight, _, childPrev⟩ := Block.compactOk fine
  obtain ⟨above, position⟩ := Segment.blockAt.mp (servedOk.mp served).2
  obtain ⟨_, place⟩ := Segment.blockAt.mp (servedOk.mp next).2
  have follows : height + 1 - chain.active.start = height - chain.active.start + 1 := by omega
  rw [follows] at place
  constructor
  · rw [childHeight, parentHeight, servedHeight valid served, servedHeight valid next]
  · rw [childPrev, parentHash, valid.linked.next _ parent child position place]

theorem copiesCompact {chain : SimChain} {heights : List Nat} {items : List CompactBlock}
    (shown : items.map some = heights.map chain.copy?) :
    (items.map fun item => some (.ok item)) =
      heights.map fun height => (chain.block? height).map Block.compact := by
  have compacted : ∀ height ∈ heights,
      (chain.copy? height).map Except.ok = (chain.block? height).map Block.compact := by
    intro height member
    have listed : chain.copy? height ∈ items.map some := by
      rw [shown]
      exact List.mem_map_of_mem member
    obtain ⟨block, _, copy⟩ := List.mem_map.mp listed
    obtain ⟨full, found, ok⟩ := copyOk.mp copy.symm
    rw [← copy, (servedOk.mp found).2, Option.map_some, Option.map_some, ok]
  refine Eq.trans ?_ (List.map_congr_left compacted)
  calc items.map (fun item => some (Except.ok item))
      = (items.map some).map (Option.map Except.ok) := by
        rw [List.map_map]
        rfl
    _ = heights.map fun height => (chain.copy? height).map Except.ok := by
        rw [shown, List.map_map]
        rfl

theorem risingLinked {chain : SimChain} (valid : chain.Valid) {start stop : Nat}
    (upward : start ≤ stop) {going : Nat → Bool} {items : List CompactBlock}
    (shown : items.map some = ((Wallet.heightsBetween start stop).takeWhile going).map chain.copy?)
    {index : Nat} {below above : CompactBlock} (first : items[index]? = some below)
    (second : items[index + 1]? = some above) :
    above.height = below.height + 1 ∧ above.prevHash = below.hash := by
  obtain ⟨height, place, lower⟩ := Wallet.Stream.emittedAt shown first
  obtain ⟨next, follows, upper⟩ := Wallet.Stream.emittedAt shown second
  rw [Wallet.risingAt upward place] at lower
  rw [Wallet.risingAt upward follows, ← Nat.add_assoc] at upper
  exact copiesLinked valid lower upper

theorem rangeStreams {ι : Type} (overflow : Unsigned.Overflow) (requests : List Request) {tip : Nat}
    (latest : (fresh.run overflow requests).latest = some tip) (store : Store)
    (copied : (fresh.run overflow requests).Copied store.window) (start stop : Wallet.BlockId)
    (wide : start.height < 2 ^ 64 ∧ stop.height < 2 ^ 64) :
    let chain := fresh.run overflow requests
    let served (height : Nat) : Bool := chain.active.start ≤ height ∧
      height < chain.active.start + chain.active.blocks.length ∧ height ≤ tip
    let walked := Wallet.heightsBetween start.height stop.height
    ∃ stream, Job.run answer (Wallet.getBlockRange (ι := ι) ⟨some start, some stop⟩).run store chain =
        ⟨.ok stream, [], store, chain⟩ ∧
      ∃ items, Job.run answer stream.produce store chain =
          ⟨(walked.find? fun height => !served height).map fun height =>
            ⟨.notFound, s!"block {height} not found"⟩, items, store, chain⟩ ∧
        (items.map fun item => some (.ok item)) =
          (walked.takeWhile served).map (fun height => (chain.block? height).map Block.compact) ∧
        ((∀ height ∈ walked, served height) →
          items.length = ((start.height : Int) - stop.height).natAbs + 1) ∧
        (start.height ≤ stop.height → ∀ index below above, items[index]? = some below →
          items[index + 1]? = some above →
            above.height = below.height + 1 ∧ above.prevHash = below.hash) := by
  intro chain served walked
  have valid : chain.Valid := runValid freshValid overflow requests
  have present : (fun height => (chain.copy? height).isSome) = served := by
    funext height
    rw [Bool.eq_iff_iff, copyThere valid latest, decide_eq_true_iff]
  have absent : (fun height => (chain.copy? height).isNone) = fun height => !served height := by
    rw [← present]
    funext height
    exact (Option.not_isSome _).symm
  have small : ∀ height ∈ walked, height ≤ Unsigned.greatest64 := by
    intro height member
    have reached := Wallet.betweenEnds member
    have greatest : Unsigned.greatest64 = 2 ^ 64 - 1 := rfl
    omega
  obtain ⟨items, ends, shown⟩ := Wallet.Stream.emitEachRun
    fun height (member : height ∈ walked) => compactRun valid copied (small height member)
  rw [absent] at ends
  rw [present] at shown
  refine ⟨⟨some Settings.streamLimit, Wallet.walkBetween start.height stop.height⟩, rfl, items, ?_,
    ?_, ?_, ?_⟩
  · rw [Wallet.walkBetweenIs]
    exact ends
  · exact copiesCompact shown
  · intro all
    have count := congrArg List.length shown
    rw [List.length_map, List.length_map, List.takeWhile_eq_self_iff.mpr all] at count
    rw [count, Wallet.heightsCount]
  · intro upward index below above first second
    exact risingLinked valid upward shown first second

def threeFillers : List Request :=
  [.reset 1 "c2d6d0b4" "regtest", .stageFiller 1 0 3, .commit 2]

/-- Up to the third block, past the tip at the second, of which the window holds a copy. -/
theorem upPastTheTip :
    let chain := fresh.run .ends threeFillers
    chain.latest = some 2 ∧ ∃ copy, chain.copy? 2 = some copy ∧
      let store : Store := ⟨0, ⟨2, [copy]⟩, Mempool.fresh 0⟩
      chain.Copied store.window ∧
      ∃ stream, Job.run answer (Wallet.getBlockRange (ι := Empty) ⟨some ⟨1, []⟩, some ⟨3, []⟩⟩).run
          store chain = ⟨.ok stream, [], store, chain⟩ ∧
        ∃ below, Job.run answer stream.produce store chain =
            ⟨some ⟨.notFound, "block 3 not found"⟩, [below, copy], store, chain⟩ ∧
          copy.height = below.height + 1 ∧ copy.prevHash = below.hash := by
  intro chain
  have latest : (fresh.run .ends threeFillers).latest = some 2 := by rfl
  have bottom : (fresh.run .ends threeFillers).active.start = 1 := by rfl
  have count : (fresh.run .ends threeFillers).active.blocks.length = 3 := by rfl
  have valid : chain.Valid := runValid freshValid .ends threeFillers
  obtain ⟨copy, held⟩ : ∃ copy, chain.copy? 2 = some copy := by
    rw [← Option.isSome_iff_exists, copyThere valid latest, bottom, count]
    decide
  have copied : chain.Copied ⟨2, [copy]⟩ := by
    intro height block found
    obtain ⟨(above : 2 ≤ height), position⟩ := Window.getOk.mp found
    obtain ⟨(inside : height - 2 < 1), same⟩ := List.getElem?_eq_some_iff.mp position
    have here : height = 2 := by omega
    rw [List.getElem_singleton] at same
    rw [here, ← same]
    exact copyOk.mp held
  obtain ⟨stream, made, items, ends, shown, _, linked⟩ := rangeStreams (ι := Empty) .ends
    threeFillers latest ⟨0, ⟨2, [copy]⟩, .fresh 0⟩ copied ⟨1, []⟩ ⟨3, []⟩ (by decide)
  rw [bottom, count] at ends shown
  refine ⟨latest, copy, held, copied, stream, made, ?_⟩
  match items, shown with
  | [below, above], shown =>
    have second : some (Except.ok above) = (chain.block? 2).map Block.compact :=
      (List.cons.inj (List.cons.inj shown).2).1
    obtain ⟨full, served, ok⟩ := copyOk.mp held
    rw [(servedOk.mp served).2, Option.map_some, ok] at second
    cases second
    exact ⟨below, ends, linked (by decide) 0 below copy rfl rfl⟩

end SimChain

end WalletProxy
