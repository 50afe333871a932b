import WalletProxy.Proofs.SegmentSteps

/-! Putting transactions into the blocks of a segment, one after another. Each block gets the ones
sent to its height and no others, in their order; the first one that finds no block, or a full one,
is what the whole list is refused for. -/
namespace WalletProxy
open Unsigned (Overflow)

namespace Block

/-- What transactions make of a block they are put into, up to its predecessor: the first byte of
the Sapling root counts them. -/
structure Filled (old : Block) (txs : List BlockTx) (new : Block) : Prop where
  transactions : new.transactions = old.transactions ++ txs
  height : new.height = old.height
  marker : ∃ first rest, old.header.saplingRoot.val = first :: rest ∧
    new.header.saplingRoot.val = UInt8.ofNat (first.toNat + txs.length) :: rest
  header : new.header = { old.header with
    prev := new.header.prev, saplingRoot := new.header.saplingRoot }

theorem appendError {block : Block} {tx : BlockTx} {fault : BlockError} :
    block.append tx = .error fault ↔
      maxTransactions ≤ block.transactions.length ∧ fault = .full block.height := by
  unfold append
  split
  · rename_i most
    constructor
    · intro failed
      cases failed
      exact ⟨most, rfl⟩
    · intro h
      obtain ⟨_, rfl⟩ := h
      rfl
  · rename_i room
    constructor
    · intro failed
      contradiction
    · intro h
      exact absurd h.1 room

theorem rootFirst (root : Bytes32) : ∃ first rest, root.val = first :: rest := by
  have nonempty : root.val ≠ [] := by
    intro empty
    have size := root.property
    rw [empty] at size
    contradiction
  exact List.exists_cons_of_ne_nil nonempty

theorem filledSelf (block : Block) : Filled block [] block := by
  obtain ⟨first, rest, same⟩ := rootFirst block.header.saplingRoot
  refine ⟨(List.append_nil _).symm, rfl, ⟨first, rest, same, ?_⟩, rfl⟩
  rw [same]
  simp

theorem filledFirst {block fuller last : Block} {tx : BlockTx} {rest : List BlockTx}
    (appended : block.append tx = .ok fuller) (filled : Filled fuller rest last) :
    Filled block (tx :: rest) last := by
  obtain ⟨_, rfl⟩ := appendOk.mp appended
  obtain ⟨first, others, same⟩ := rootFirst block.header.saplingRoot
  refine ⟨?_, filled.height, ⟨first, others, same, ?_⟩, filled.header⟩
  · rw [filled.transactions, List.append_assoc]
    rfl
  · obtain ⟨raised, tail, own, counted⟩ := filled.marker
    have modified : (first + 1) :: others = raised :: tail := by
      rw [← own]
      show (first + 1) :: others = block.header.saplingRoot.val.modify 0 (· + 1)
      rw [same]
      rfl
    obtain ⟨rfl, rfl⟩ := List.cons.inj modified
    rw [counted, List.length_cons]
    have counts : UInt8.ofNat ((first + 1).toNat + rest.length) =
        UInt8.ofNat (first.toNat + (rest.length + 1)) := by
      simp only [UInt8.ofNat_add, UInt8.ofNat_toNat, UInt8.add_assoc, UInt8.add_comm 1]
      rfl
    rw [counts]

theorem filledWithPrev {old new : Block} {txs : List BlockTx} (filled : Filled old txs new)
    (prev : Bytes32) : Filled old txs (new.withPrev prev) := by
  refine ⟨filled.transactions, filled.height, filled.marker, ?_⟩
  show { new.header with prev } = _
  rw [filled.header]
  rfl

end Block

namespace Segment

def sentTo (height : Nat) (txs : List (Nat × BlockTx)) : List BlockTx :=
  (txs.filter fun entry => entry.1 = height).map Prod.snd

theorem sentToSame (height : Nat) (tx : BlockTx) (rest : List (Nat × BlockTx)) :
    sentTo height ((height, tx) :: rest) = tx :: sentTo height rest := by
  simp [sentTo]

theorem sentToOther {height other : Nat} (different : other ≠ height) (tx : BlockTx)
    (rest : List (Nat × BlockTx)) : sentTo height ((other, tx) :: rest) = sentTo height rest := by
  simp [sentTo, different]

theorem noBlockAt {segment : Segment} {height : Nat} :
    segment.block? height = none ↔ height < segment.start ∨ segment.stop ≤ height := by
  unfold block? stop
  split
  · rw [List.getElem?_eq_none_iff]
    omega
  · simp only [true_iff]
    omega

theorem injectBlocks {overflow : Overflow} {segment next : Segment} {height : Nat} {tx : BlockTx}
    (ok : segment.inject overflow height tx = .ok next) :
    next.start = segment.start ∧ next.blocks.length = segment.blocks.length ∧
      ∃ block fuller, segment.block? height = some block ∧ block.append tx = .ok fuller ∧
        next.block? height = some fuller ∧
        ∀ other, other ≠ height → next.block? other = segment.block? other := by
  obtain ⟨_, _, _, block, fuller, found, appended, rfl⟩ := injectOk.mp ok
  obtain ⟨above, position⟩ := blockAt.mp found
  obtain ⟨under, _⟩ := List.getElem?_eq_some_iff.mp position
  refine ⟨rfl, List.length_set, block, fuller, found, appended, ?_, ?_⟩
  · exact blockAt.mpr ⟨above, List.getElem?_set_self under⟩
  · intro other different
    unfold block?
    dsimp only
    split
    · rename_i reached
      exact List.getElem?_set_ne (by omega)
    · rfl

theorem injectAllFills {overflow : Overflow} {segment next : Segment}
    {txs : List (Nat × BlockTx)} (ok : segment.injectAll overflow txs = .ok next) :
    next.start = segment.start ∧ next.blocks.length = segment.blocks.length ∧
      ∀ height block, segment.block? height = some block →
        ∃ fuller, next.block? height = some fuller ∧
          Block.Filled block (sentTo height txs) fuller := by
  induction txs generalizing segment with
  | nil =>
    cases ok
    exact ⟨rfl, rfl, fun _ block found => ⟨block, found, Block.filledSelf block⟩⟩
  | cons entry rest ih =>
    obtain ⟨target, tx⟩ := entry
    obtain ⟨middle, first, others⟩ := injectAllCons.mp ok
    obtain ⟨start, length, old, fuller, there, appended, now, elsewhere⟩ := injectBlocks first
    obtain ⟨laterStart, laterLength, later⟩ := ih others
    refine ⟨laterStart.trans start, laterLength.trans length, ?_⟩
    intro height block found
    by_cases same : target = height
    · subst same
      cases Option.some.inj (there.symm.trans found)
      obtain ⟨last, kept, filled⟩ := later target fuller now
      refine ⟨last, kept, ?_⟩
      rw [sentToSame]
      exact Block.filledFirst appended filled
    · have untouched : middle.block? height = some block :=
        (elsewhere height (Ne.symm same)).trans found
      obtain ⟨last, kept, filled⟩ := later height block untouched
      refine ⟨last, kept, ?_⟩
      rw [sentToOther same]
      exact filled

theorem injectAllInside {overflow : Overflow} {segment next : Segment}
    {txs : List (Nat × BlockTx)} (ok : segment.injectAll overflow txs = .ok next) :
    ∀ entry ∈ txs, segment.start ≤ entry.1 ∧ entry.1 < segment.stop := by
  induction txs generalizing segment with
  | nil => simp
  | cons entry rest ih =>
    obtain ⟨target, tx⟩ := entry
    obtain ⟨middle, first, others⟩ := injectAllCons.mp ok
    obtain ⟨start, length, old, _, there, _⟩ := injectBlocks first
    have inside : ∀ entry ∈ rest, segment.start ≤ entry.1 ∧ entry.1 < segment.stop := by
      have bounds := ih others
      unfold stop at bounds ⊢
      rw [start, length] at bounds
      exact bounds
    refine List.forall_mem_cons.mpr ⟨?_, inside⟩
    have present : ¬ (target < segment.start ∨ segment.stop ≤ target) := by
      rw [← noBlockAt, there]
      simp
    show segment.start ≤ target ∧ target < segment.stop
    omega

theorem linkedLength (prev : Bytes32) (blocks : List Block) :
    (linked prev blocks).length = blocks.length := by
  induction blocks generalizing prev with
  | nil => rfl
  | cons block rest ih => simp [linked, ih]

theorem linkedThere {prev : Bytes32} {blocks : List Block} {index : Nat} {old : Block}
    (found : blocks[index]? = some old) :
    ∃ parent, (linked prev blocks)[index]? = some (old.withPrev parent) := by
  have position : index < (linked prev blocks).length := by
    rw [linkedLength]
    exact (List.getElem?_eq_some_iff.mp found).1
  obtain ⟨other, there, same⟩ := linkedAt (List.getElem?_eq_getElem position)
  cases Option.some.inj (found.symm.trans there)
  rw [List.getElem?_eq_getElem position, same]
  exact ⟨_, rfl⟩

inductive Refuses (overflow : Overflow) (segment : Segment) (earlier : List (Nat × BlockTx))
    (height : Nat) : Fault → Prop where
  | overflow (uncounted : segment.stop64 overflow = .error .overflow) :
      Refuses overflow segment earlier height .overflow
  | outside {stop : Nat} (counted : segment.stop64 overflow = .ok stop)
      (beyond : height < segment.start ∨ stop ≤ height) :
      Refuses overflow segment earlier height (.outside height segment.start stop)
  | full {stop : Nat} {block : Block} (counted : segment.stop64 overflow = .ok stop)
      (under : height < stop) (found : segment.block? height = some block)
      (most : 253 ≤ block.transactions.length + (sentTo height earlier).length) :
      Refuses overflow segment earlier height (.block (.full block.height))

def Admits (overflow : Overflow) (segment : Segment) (txs : List (Nat × BlockTx)) : Prop :=
  ∀ earlier entry later, txs = earlier ++ entry :: later →
    ∀ fault, ¬ Refuses overflow segment earlier entry.1 fault

def FirstRefusal (overflow : Overflow) (segment : Segment) (txs : List (Nat × BlockTx))
    (fault : Fault) : Prop :=
  ∃ earlier entry later, txs = earlier ++ entry :: later ∧ Admits overflow segment earlier ∧
    Refuses overflow segment earlier entry.1 fault

section
variable {overflow : Overflow} {segment next : Segment} {tx : BlockTx} {fault : Fault}

theorem injectAbsent {stop height : Nat} (beyond : height < segment.start ∨ stop ≤ height)
    (tx : BlockTx) :
    segment.injectUpTo stop height tx = .error (.outside height segment.start stop) := by
  have absent : (if height < stop then segment.block? height else none) = none := by
    split
    · exact noBlockAt.mpr (by omega)
    · rfl
  simp only [injectUpTo, absent]

theorem injectFull {stop height : Nat} {block : Block} {own : BlockError} (under : height < stop)
    (found : segment.block? height = some block) (full : block.append tx = .error own) :
    segment.injectUpTo stop height tx = .error (.block own) := by
  simp only [injectUpTo, if_pos under, found, full]
  rfl

theorem injectCounted {stop : Nat} (counted : segment.stop64 overflow = .ok stop) (height : Nat)
    (tx : BlockTx) : segment.inject overflow height tx = segment.injectUpTo stop height tx := by
  rw [inject, counted]
  rfl

theorem injectUncounted {own : Fault} (uncounted : segment.stop64 overflow = .error own)
    (height : Nat) (tx : BlockTx) : segment.inject overflow height tx = .error own := by
  rw [inject, uncounted]
  rfl

theorem injectError {height : Nat} :
    segment.inject overflow height tx = .error fault ↔ Refuses overflow segment [] height fault := by
  constructor
  · intro failed
    cases counted : segment.stop64 overflow with
    | error own =>
      obtain ⟨rfl, _⟩ := stop64Error.mp counted
      cases (injectUncounted counted height tx).symm.trans failed
      exact .overflow counted
    | ok stop =>
      have low := stop64Le counted
      rw [injectCounted counted] at failed
      by_cases beyond : height < segment.start ∨ stop ≤ height
      · cases (injectAbsent beyond tx).symm.trans failed
        exact .outside counted beyond
      · have present : segment.block? height ≠ none := by
          rw [Ne, noBlockAt]
          omega
        obtain ⟨block, found⟩ := Option.ne_none_iff_exists'.mp present
        have under : height < stop := by omega
        cases appended : block.append tx with
        | error own =>
          cases (injectFull under found appended).symm.trans failed
          obtain ⟨most, rfl⟩ := Block.appendError.mp appended
          exact .full counted under found most
        | ok fuller =>
          have granted := injectUpToOk.mpr ⟨under, block, fuller, found, appended, rfl⟩
          rw [failed] at granted
          contradiction
  · intro refused
    cases refused with
    | overflow uncounted => exact injectUncounted uncounted height tx
    | outside counted beyond =>
      rw [injectCounted counted, injectAbsent beyond]
    | full counted under found most =>
      rw [injectCounted counted, injectFull under found (Block.appendError.mpr ⟨most, rfl⟩)]

theorem injectStop {target : Nat} (ok : segment.inject overflow target tx = .ok next) :
    next.stop64 overflow = segment.stop64 overflow := by
  obtain ⟨start, length, _⟩ := injectBlocks ok
  unfold stop64 Segment.stop
  rw [start, length]

/- Seen from the segment after one transaction, that transaction is no longer among the earlier ones
but in its block. -/
theorem refusesNext {target : Nat} (ok : segment.inject overflow target tx = .ok next)
    (earlier : List (Nat × BlockTx)) (height : Nat) (fault : Fault) :
    Refuses overflow segment ((target, tx) :: earlier) height fault ↔
      Refuses overflow next earlier height fault := by
  have stop := injectStop ok
  obtain ⟨start, _, old, fuller, there, appended, now, elsewhere⟩ := injectBlocks ok
  obtain ⟨_, sameFuller⟩ := Block.appendOk.mp appended
  have sameHeight : fuller.height = old.height := by rw [sameFuller]
  have more : fuller.transactions.length = old.transactions.length + 1 := by
    rw [sameFuller]
    simp
  constructor
  · intro refused
    cases refused with
    | overflow uncounted => exact .overflow (stop.trans uncounted)
    | outside counted beyond =>
      rw [← start] at beyond ⊢
      exact .outside (stop.trans counted) beyond
    | @full _ block counted under found most =>
      by_cases same : target = height
      · subst same
        cases Option.some.inj (there.symm.trans found)
        rw [sentToSame, List.length_cons] at most
        rw [← sameHeight]
        exact .full (stop.trans counted) under now (by omega)
      · rw [sentToOther same] at most
        exact .full (stop.trans counted) under
          ((elsewhere height (Ne.symm same)).trans found) most
  · intro refused
    cases refused with
    | overflow uncounted => exact .overflow (stop.symm.trans uncounted)
    | outside counted beyond =>
      rw [start] at beyond ⊢
      exact .outside (stop.symm.trans counted) beyond
    | @full _ block counted under found most =>
      by_cases same : target = height
      · subst same
        cases Option.some.inj (now.symm.trans found)
        rw [sameHeight]
        refine .full (stop.symm.trans counted) under there ?_
        rw [sentToSame, List.length_cons]
        omega
      · refine .full (stop.symm.trans counted) under
          ((elsewhere height (Ne.symm same)).symm.trans found) ?_
        rw [sentToOther same]
        exact most

theorem admitsNext {target : Nat} (ok : segment.inject overflow target tx = .ok next)
    (rest : List (Nat × BlockTx)) :
    Admits overflow segment ((target, tx) :: rest) ↔ Admits overflow next rest := by
  constructor
  · intro admitted earlier entry later same fault refused
    subst same
    exact admitted ((target, tx) :: earlier) entry later rfl fault
      ((refusesNext ok earlier entry.1 fault).mpr refused)
  · intro admitted earlier entry later same fault refused
    cases earlier with
    | nil =>
      cases same
      rw [injectError.mpr refused] at ok
      contradiction
    | cons first earlier =>
      obtain ⟨rfl, rfl⟩ := List.cons.inj same
      exact admitted earlier entry later rfl fault
        ((refusesNext ok earlier entry.1 fault).mp refused)

theorem injectAllError {txs : List (Nat × BlockTx)} :
    segment.injectAll overflow txs = .error fault ↔ FirstRefusal overflow segment txs fault := by
  induction txs generalizing segment with
  | nil =>
    constructor
    · intro failed
      contradiction
    · intro refused
      obtain ⟨earlier, entry, later, same, _⟩ := refused
      simp at same
  | cons entry rest ih =>
    obtain ⟨target, tx⟩ := entry
    cases first : segment.inject overflow target tx with
    | error own =>
      have step : segment.injectAll overflow ((target, tx) :: rest) = .error own := by
        unfold injectAll
        rw [first]
        rfl
      have refused := injectError.mp first
      rw [step]
      constructor
      · intro failed
        cases failed
        exact ⟨[], (target, tx), rest, rfl, by simp [Admits], refused⟩
      · intro refusal
        obtain ⟨earlier, entry, later, same, admitted, other⟩ := refusal
        cases earlier with
        | nil =>
          cases same
          have again : segment.inject overflow target tx = .error fault := injectError.mpr other
          rw [← first, again]
        | cons head earlier =>
          obtain ⟨rfl, rfl⟩ := List.cons.inj same
          exact absurd refused (admitted [] (target, tx) earlier rfl own)
    | ok middle =>
      have step : segment.injectAll overflow ((target, tx) :: rest) =
          middle.injectAll overflow rest := by
        rw [injectAll, first]
        rfl
      rw [step, ih]
      constructor
      · intro refusal
        obtain ⟨earlier, entry, later, rfl, admitted, refused⟩ := refusal
        exact ⟨(target, tx) :: earlier, entry, later, rfl, (admitsNext first earlier).mpr admitted,
          (refusesNext first earlier entry.1 fault).mpr refused⟩
      · intro refusal
        obtain ⟨earlier, entry, later, same, admitted, refused⟩ := refusal
        cases earlier with
        | nil =>
          cases same
          rw [injectError.mpr refused] at first
          contradiction
        | cons head earlier =>
          obtain ⟨rfl, rfl⟩ := List.cons.inj same
          exact ⟨earlier, entry, later, rfl, (admitsNext first earlier).mp admitted,
            (refusesNext first earlier entry.1 fault).mp refused⟩

end

end Segment

end WalletProxy
