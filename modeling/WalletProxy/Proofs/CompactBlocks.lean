import Mathlib.Data.List.Forall2
import WalletProxy.Proofs.FillerBlocks
import WalletProxy.Proofs.ShieldedParts

/-! The compact form of a block. Every block that can come about has one: its transactions were read
before, so they are read again. It holds the shielded transactions and no others, each at its place
in the block and with all of its spends, outputs and actions. -/
namespace WalletProxy

/-- What is told of a transaction with this id and body: of each spend, output and action, in their
order, what a light wallet needs, and of a ciphertext the first 52 bytes. -/
structure CompactTx.Tells (told : CompactTx) (id : Bytes32) (body : TxBody) : Prop where
  hash : told.hash = id.val
  spends : List.Forall₂ (fun (own : CompactSpend) (spend : SaplingSpend) =>
    own.nullifier = spend.nullifier.val) told.spends body.sapling.spends
  outputs : List.Forall₂ (fun (own : CompactOutput) (output : SaplingOutput) =>
    own.note = output.note.val ∧ own.ephemeralKey = output.ephemeralKey.val ∧
      own.ciphertext.length = 52 ∧ own.ciphertext <+: output.ciphertext)
    told.outputs body.sapling.outputs
  actions : List.Forall₂ (fun (own : CompactAction) (action : OrchardAction) =>
    own.nullifier = action.nullifier.val ∧ own.note = action.note.val ∧
      own.ephemeralKey = action.ephemeralKey.val ∧
      own.ciphertext.length = 52 ∧ own.ciphertext <+: action.ciphertext)
    told.actions body.orchard.actions

theorem TxBody.firstBytes {ciphertext : Bytes} (whole : ciphertext.length = ciphertextLength) :
    (ciphertext.take TxDigest.compactLength).length = 52 := by
  rw [List.length_take, whole]
  rfl

theorem Transaction.compactTells {tx : Transaction} (whole : tx.body.WholeNotes) (index : Nat) :
    (tx.compact index).Tells tx.id tx.body where
  hash := rfl
  spends := List.forall₂_map_left_iff.mpr (List.forall₂_same.mpr fun _ _ => rfl)
  outputs := List.forall₂_map_left_iff.mpr (List.forall₂_same.mpr fun output member =>
    ⟨rfl, rfl, TxBody.firstBytes (whole.outputs output member), List.take_prefix _ _⟩)
  actions := List.forall₂_map_left_iff.mpr (List.forall₂_same.mpr fun action member =>
    ⟨rfl, rfl, rfl, TxBody.firstBytes (whole.actions action member), List.take_prefix _ _⟩)

theorem Transaction.compactNonempty {tx : Transaction} (shielded : tx.isShielded = true)
    (index : Nat) : (tx.compact index).spends ≠ [] ∨ (tx.compact index).outputs ≠ [] ∨
      (tx.compact index).actions ≠ [] := by
  simpa [Transaction.compact] using isShieldedIff.mp shielded

theorem BlockTx.parsedDecodes {tx : BlockTx} (parsed : BlockTx.ofBytes tx.data = .ok tx) :
    ∃ decoded, tx.decode = .ok decoded ∧ decoded.id = tx.id ∧ decoded.body.WholeNotes := by
  obtain ⟨_, decoded, taken, named⟩ := BlockTx.ofBytesOk.mp parsed
  exact ⟨decoded, Reader.wholeOk.mpr taken, named.symm,
    TxBody.readWhole (Transaction.bodyRead taken)⟩

namespace Block

/-- How blocks come about: they are read, or put together from transactions that were read, and then
given further transactions and linked to other predecessors. -/
inductive Built : Block → Prop where
  | read {bytes : Bytes} {block : Block} (ok : ofBytes bytes = .ok block) : Built block
  | assembled {header : Header} {txs : List BlockTx} {block : Block}
      (parsed : ∀ tx ∈ txs, BlockTx.ofBytes tx.data = .ok tx)
      (ok : assemble header txs = .ok block) : Built block
  | given {block fuller : Block} {tx : BlockTx} (before : Built block)
      (parsed : BlockTx.ofBytes tx.data = .ok tx) (ok : block.append tx = .ok fuller) : Built fuller
  | linked {block : Block} (before : Built block) (prev : Bytes32) : Built (block.withPrev prev)

theorem builtParsed {block : Block} (built : block.Built) :
    ∀ tx ∈ block.transactions, BlockTx.ofBytes tx.data = .ok tx := by
  induction built with
  | read ok => exact (ofBytesWellFormed ok).1.parsed
  | assembled parsed ok =>
    obtain ⟨_, same, _⟩ := assembleOk.mp ok
    rw [same]
    exact parsed
  | given before parsed ok ih =>
    obtain ⟨_, rfl⟩ := appendOk.mp ok
    exact List.forall_mem_append.mpr ⟨ih, List.forall_mem_singleton.mpr parsed⟩
  | linked before prev ih => exact ih

theorem builtDeclares {block : Block} (built : block.Built) :
    ∃ coinbase, block.transactions.head? = some coinbase ∧
      Coinbase.height coinbase.data = .ok block.height := by
  induction built with
  | read ok =>
    obtain ⟨coinbase, rest, same, declared⟩ := wellFormedFirst (ofBytesWellFormed ok).1
    exact ⟨coinbase, by rw [same]; rfl, declared⟩
  | assembled parsed ok =>
    obtain ⟨_, same, declared⟩ := assembleOk.mp ok
    rw [same]
    exact declared
  | given before parsed ok ih =>
    obtain ⟨_, rfl⟩ := appendOk.mp ok
    obtain ⟨coinbase, first, declared⟩ := ih
    refine ⟨coinbase, ?_, declared⟩
    rw [List.head?_append, first]
    rfl
  | linked before prev ih => exact ih

def entryAt (placed : BlockTx × Nat) : Option CompactTx :=
  match placed.1.decode with
  | .error _ => none
  | .ok decoded => if decoded.isShielded then some (decoded.compact placed.2) else none

theorem entryAtSome {tx : BlockTx} {decoded : Transaction} {index : Nat} {entry : CompactTx}
    (ok : tx.decode = .ok decoded) :
    entryAt (tx, index) = some entry ↔
      decoded.isShielded = true ∧ decoded.compact index = entry := by
  simp [entryAt, ok]

theorem compactTxsIs {txs : List BlockTx} (index : Nat)
    (parsed : ∀ tx ∈ txs, BlockTx.ofBytes tx.data = .ok tx) :
    compactTxs index txs = .ok ((txs.zipIdx index).filterMap entryAt) := by
  induction txs generalizing index with
  | nil => rfl
  | cons tx rest ih =>
    obtain ⟨head, tail⟩ := List.forall_mem_cons.mp parsed
    obtain ⟨decoded, ok, _⟩ := BlockTx.parsedDecodes head
    refine Results.bindOk.mpr ⟨decoded, ok, Results.bindOk.mpr ⟨_, ih (index + 1) tail, ?_⟩⟩
    rw [List.zipIdx_cons]
    cases shielded : decoded.isShielded with
    | false => simp [entryAt, ok, shielded, Results.pureOk]
    | true => simp [entryAt, ok, shielded, Results.pureOk]

theorem compactTotal {block : Block} (good : block.WellFormed) :
    ∃ compacted, block.compact = .ok compacted := by
  rw [compact, compactTxsIs 0 good.parsed]
  exact ⟨_, rfl⟩

theorem compactOk {block : Block} {compacted : CompactBlock} (ok : block.compact = .ok compacted) :
    compacted.height = block.height ∧ compacted.hash = block.hash.val ∧
      compacted.prevHash = block.header.prev.val := by
  unfold compact at ok
  split at ok
  · contradiction
  · cases ok
    exact ⟨rfl, rfl, rfl⟩

theorem compactLike {block other : Block} {own others : CompactBlock}
    (header : block.header = other.header) (height : block.height = other.height)
    (ok : block.compact = .ok own) (otherOk : other.compact = .ok others) :
    own = { others with transactions := own.transactions } := by
  unfold compact at ok otherOk
  split at ok
  · contradiction
  · cases ok
    split at otherOk
    · contradiction
    · cases otherOk
      simp only [hash, header, height]

theorem entriesRise {txs : List BlockTx} (parsed : ∀ tx ∈ txs, BlockTx.ofBytes tx.data = .ok tx) :
    (txs.zipIdx.filterMap entryAt).Pairwise fun earlier later => earlier.index < later.index := by
  have places : txs.zipIdx.Pairwise fun earlier later => earlier.2 < later.2 := by
    rw [← List.pairwise_map, List.zipIdx_map_snd]
    exact List.pairwise_lt_range'
  have placed : ∀ pair ∈ txs.zipIdx, ∀ entry, entryAt pair = some entry → entry.index = pair.2 := by
    intro pair member entry told
    have there := List.mem_of_getElem? (List.mem_zipIdx_iff_getElem?.mp member)
    obtain ⟨decoded, ok, _⟩ := BlockTx.parsedDecodes (parsed pair.1 there)
    obtain ⟨_, rfl⟩ := (entryAtSome ok).mp told
    rfl
  refine List.pairwise_filterMap.mpr (places.imp_of_mem ?_)
  intro earlier later first second rise entry told other toldOther
  rw [placed earlier first entry told, placed later second other toldOther]
  exact rise

theorem compactExact {block : Block} (built : block.Built) :
    ∃ compacted, block.compact = .ok compacted ∧
      (∀ entry ∈ compacted.transactions, ∃ stored decoded,
        block.transactions[entry.index]? = some stored ∧ stored.decode = .ok decoded ∧
          entry.Tells stored.id decoded.body ∧
          (entry.spends ≠ [] ∨ entry.outputs ≠ [] ∨ entry.actions ≠ [])) ∧
      (∀ index stored, block.transactions[index]? = some stored →
        ∃ decoded, stored.decode = .ok decoded ∧ decoded.id = stored.id ∧
          (decoded.body.sapling.spends ≠ [] ∨ decoded.body.sapling.outputs ≠ [] ∨
              decoded.body.orchard.actions ≠ [] →
            ∃ entry ∈ compacted.transactions, entry.index = index)) ∧
      (compacted.transactions.Pairwise fun earlier later => earlier.index < later.index) ∧
      (∃ coinbase, block.transactions.head? = some coinbase ∧
        Coinbase.height coinbase.data = .ok compacted.height) ∧
      compacted.hash = block.header.hash.val ∧ compacted.prevHash = block.header.prev.val ∧
      compacted.time = block.header.time := by
  have parsed := builtParsed built
  have decodes : ∀ {index : Nat} {tx : BlockTx}, block.transactions[index]? = some tx →
      ∃ decoded, tx.decode = .ok decoded ∧ decoded.id = tx.id ∧ decoded.body.WholeNotes :=
    fun found => BlockTx.parsedDecodes (parsed _ (List.mem_of_getElem? found))
  refine ⟨_, by rw [compact, compactTxsIs 0 parsed], ?_, ?_, entriesRise parsed,
    builtDeclares built, rfl, rfl, rfl⟩
  · intro entry member
    obtain ⟨⟨tx, index⟩, place, told⟩ := List.mem_filterMap.mp member
    have found := List.mem_zipIdx_iff_getElem?.mp place
    obtain ⟨decoded, ok, named, whole⟩ := decodes found
    obtain ⟨shielded, rfl⟩ := (entryAtSome ok).mp told
    have tells := Transaction.compactTells whole index
    rw [named] at tells
    exact ⟨tx, decoded, found, ok, tells, Transaction.compactNonempty shielded index⟩
  · intro index tx found
    obtain ⟨decoded, ok, named, _⟩ := decodes found
    refine ⟨decoded, ok, named, fun shielded => ?_⟩
    have told : entryAt (tx, index) = some (decoded.compact index) :=
      (entryAtSome ok).mpr ⟨isShieldedIff.mpr shielded, rfl⟩
    exact ⟨decoded.compact index, List.mem_filterMap.mpr
      ⟨(tx, index), List.mem_zipIdx_iff_getElem?.mpr found, told⟩, rfl⟩

def noteTx : Bytes :=
  [0x04, 0x00, 0x00, 0x80, 0x85, 0x20, 0x2f, 0x89] ++ List.replicate 18 0 ++ [0x00, 0x01, 0x14] ++
    List.replicate 31 0 ++ (List.replicate 916 7 ++ List.replicate 65 0)

set_option maxRecDepth 4096 in
theorem noteCompacted :
    ∃ tx fuller, BlockTx.ofBytes noteTx = .ok tx ∧ (Filler.made 0 1).append tx = .ok fuller ∧
      let block := fuller.withPrev (Filler.made 0 0).hash
      block.Built ∧ ∃ compacted, block.compact = .ok compacted ∧ compacted.height = 1 ∧
        compacted.prevHash = (Filler.made 0 0).hash.val ∧
        ∃ entry ∈ compacted.transactions, entry.index = 1 ∧ entry.hash = tx.id.val ∧
          entry.outputs.map CompactOutput.ciphertext = [List.replicate 52 7] := by
  obtain ⟨decoded, ok, starts⟩ : ∃ decoded, Transaction.ofBytes noteTx = .ok decoded ∧
      (decoded.body.sapling.outputs.map fun output => output.ciphertext.take 52) =
        [List.replicate 52 7] := ⟨_, rfl, rfl⟩
  obtain ⟨output, only, shown⟩ := List.map_eq_singleton_iff.mp starts
  let tx : BlockTx := ⟨decoded.id, noteTx⟩
  have parsed : BlockTx.ofBytes tx.data = .ok tx := Results.mapOk.mpr ⟨decoded, ok, rfl⟩
  have filler : (Filler.made 0 1).Built :=
    .read (ofBytesWrite (Filler.blockWellFormed (Filler.blockMade 0 1)))
  have built := (filler.given parsed rfl).linked (Filler.made 0 0).hash
  obtain ⟨compacted, made, entries, all, _, ⟨coinbase, first, declared⟩, _, prev, _⟩ :=
    compactExact built
  refine ⟨tx, _, parsed, rfl, built, compacted, made, ?_, prev, ?_⟩
  · have own : coinbase = ⟨doubleSha256 (Filler.coinbase 1), Filler.coinbase 1⟩ :=
      (Option.some.inj first).symm
    rw [own, Filler.coinbaseHeight] at declared
    exact (Except.ok.inj declared).symm
  · obtain ⟨again, decodes, _, there⟩ := all 1 tx rfl
    cases Except.ok.inj (ok.symm.trans decodes)
    obtain ⟨entry, member, place⟩ := there (by simp [only])
    obtain ⟨stored, other, found, decodes, tells, _⟩ := entries entry member
    rw [place] at found
    cases Option.some.inj found
    cases Except.ok.inj (ok.symm.trans decodes)
    refine ⟨entry, member, place, tells.hash, ?_⟩
    have outputs := tells.outputs
    rw [only] at outputs
    obtain ⟨own, _, ⟨_, _, size, start⟩, rest, same⟩ := List.forall₂_cons_right_iff.mp outputs
    rw [List.prefix_iff_eq_take, size, shown] at start
    rw [same, List.forall₂_nil_right_iff.mp rest, List.map_singleton, start]

end Block

end WalletProxy
