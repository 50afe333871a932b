import WalletProxy.Proofs.Results
import WalletProxy.Proofs.TransactionSequential

/-! The block format. Reading a block accepts the bytes of a well-formed block and nothing else, so
that each block has one written form and each byte string is at most one block. -/
namespace WalletProxy
open Reader

theorem Header.readOk {input rest : Bytes} {header : Header} :
    Header.read input = .ok (header, rest) ↔
      header.solution.length ≤ CompactSize.limit ∧ input = header.write ++ rest := by
  simp only [Header.read, bindOk, wordOk, bytes32Ok, CompactSize.bytesOk, pureOk]
  constructor
  · intro h
    obtain ⟨version, _, rfl, prev, _, rfl, merkleRoot, _, rfl, saplingRoot, _, rfl, time, _, rfl,
      bits, _, rfl, nonce, _, rfl, solution, _, ⟨bounded, rfl⟩, rfl, rfl⟩ := h
    exact ⟨bounded, by simp only [Header.write, UInt32.toUInt32_toInt32, List.append_assoc]⟩
  · intro h
    obtain ⟨bounded, rfl⟩ := h
    refine ⟨header.version.toUInt32, _, ?_, header.prev, _, rfl, header.merkleRoot, _, rfl,
      header.saplingRoot, _, rfl, header.time, _, rfl, header.bits, _, rfl, header.nonce, _, rfl,
      header.solution, _, ⟨bounded, rfl⟩, ?_, rfl⟩
    · simp only [Header.write, List.append_assoc]
    · rw [Int32.toInt32_toUInt32]

theorem Header.writeInj {header other : Header}
    (bounded : header.solution.length ≤ CompactSize.limit)
    (otherBounded : other.solution.length ≤ CompactSize.limit)
    (same : header.write = other.write) : header = other := by
  have first := Header.readOk.mpr ⟨bounded, (List.append_nil header.write).symm⟩
  have second := Header.readOk.mpr ⟨otherBounded, (List.append_nil other.write).symm⟩
  rw [same, second] at first
  cases first
  rfl

namespace BlockTx

theorem ofBytesOk {data : Bytes} {tx : BlockTx} :
    ofBytes data = .ok tx ↔
      tx.data = data ∧ ∃ decoded, Transaction.read data = .ok (decoded, []) ∧
        tx.id = decoded.id := by
  unfold ofBytes Transaction.ofBytes
  simp only [Results.mapOk, wholeOk]
  constructor
  · intro h
    obtain ⟨decoded, taken, rfl⟩ := h
    exact ⟨rfl, decoded, taken, rfl⟩
  · intro h
    obtain ⟨rfl, decoded, taken, same⟩ := h
    refine ⟨decoded, taken, ?_⟩
    rw [← same]

theorem readExact : Exact BlockTx.read (fun tx => ofBytes tx.data = .ok tx) data := by
  intro input tx rest
  simp only [BlockTx.read, bindOk, Prod.exists, consumedOk, pureOk, ofBytesOk]
  constructor
  · intro h
    obtain ⟨decoded, front, _, ⟨rfl, taken⟩, rfl, rfl⟩ := h
    exact ⟨⟨trivial, decoded, taken, rfl⟩, rfl⟩
  · intro h
    obtain ⟨⟨_, decoded, taken, same⟩, rfl⟩ := h
    refine ⟨decoded, tx.data, rest, ⟨rfl, taken⟩, ?_, rfl⟩
    rw [← same]

end BlockTx

namespace Block

structure WellFormed (block : Block) : Prop where
  solution : block.header.solution.length ≤ CompactSize.limit
  count : 1 ≤ block.transactions.length ∧ block.transactions.length ≤ CompactSize.limit
  parsed : ∀ tx ∈ block.transactions, BlockTx.ofBytes tx.data = .ok tx
  height : ∀ coinbase, block.transactions.head? = some coinbase →
    Coinbase.height coinbase.data = .ok block.height

theorem wellFormedFirst {block : Block} (good : block.WellFormed) :
    ∃ coinbase rest, block.transactions = coinbase :: rest ∧
      Coinbase.height coinbase.data = .ok block.height := by
  have nonempty : block.transactions ≠ [] := List.length_pos_iff.mp good.count.1
  obtain ⟨coinbase, rest, same⟩ := List.exists_cons_of_ne_nil nonempty
  exact ⟨coinbase, rest, same, good.height coinbase (by rw [same]; rfl)⟩

theorem readPartsOk {input rest : Bytes} {header : Header} {transactions : List BlockTx} :
    readParts input = .ok ((header, transactions), rest) ↔
      header.solution.length ≤ CompactSize.limit ∧ transactions.length ≤ CompactSize.limit ∧
        (∀ tx ∈ transactions, BlockTx.ofBytes tx.data = .ok tx) ∧
        input = header.write ++ CompactSize.write transactions.length ++
          transactions.flatMap BlockTx.data ++ rest := by
  simp only [readParts, bindOk, Header.readOk, CompactSize.vectorOk BlockTx.readExact, pureOk]
  constructor
  · intro h
    obtain ⟨_, _, ⟨solution, rfl⟩, _, _, ⟨count, parsed, rfl⟩, same, rfl⟩ := h
    cases same
    exact ⟨solution, count, parsed, by simp only [List.append_assoc]⟩
  · intro h
    obtain ⟨solution, count, parsed, rfl⟩ := h
    refine ⟨header, _, ⟨solution, ?_⟩, transactions, rest, ⟨count, parsed, rfl⟩, rfl, rfl⟩
    simp only [List.append_assoc]

theorem assembleOk {header : Header} {transactions : List BlockTx} {block : Block} :
    assemble header transactions = .ok block ↔
      block.header = header ∧ block.transactions = transactions ∧
        ∃ coinbase, transactions.head? = some coinbase ∧
          Coinbase.height coinbase.data = .ok block.height := by
  cases transactions with
  | nil => simp [assemble]
  | cons coinbase others =>
    simp only [assemble, Results.mapOk, List.head?_cons, Option.some.injEq]
    constructor
    · intro h
      obtain ⟨height, declared, rfl⟩ := h
      exact ⟨rfl, rfl, coinbase, rfl, declared⟩
    · intro h
      obtain ⟨rfl, same, _, rfl, declared⟩ := h
      refine ⟨block.height, declared, ?_⟩
      rw [← same]

theorem ofBytesParts {bytes : Bytes} {block : Block} :
    ofBytes bytes = .ok block ↔
      ∃ header transactions, readParts bytes = .ok ((header, transactions), []) ∧
        assemble header transactions = .ok block := by
  unfold ofBytes
  cases h : readParts bytes with
  | error fault => simp
  | ok taken =>
    obtain ⟨⟨header, transactions⟩, rest⟩ := taken
    cases rest with
    | nil =>
      constructor
      · intro ok
        exact ⟨header, transactions, rfl, ok⟩
      · intro h
        obtain ⟨_, _, same, ok⟩ := h
        cases same
        exact ok
    | cons byte rest => simp

theorem ofBytesWellFormed {bytes : Bytes} {block : Block} (ok : ofBytes bytes = .ok block) :
    block.WellFormed ∧ block.write = bytes := by
  obtain ⟨header, transactions, parts, assembled⟩ := ofBytesParts.mp ok
  obtain ⟨solution, count, parsed, rfl⟩ := readPartsOk.mp parts
  obtain ⟨rfl, rfl, coinbase, first, height⟩ := assembleOk.mp assembled
  have nonempty : block.transactions ≠ [] := by
    intro empty
    rw [empty] at first
    contradiction
  refine ⟨⟨solution, ⟨List.length_pos_iff.mpr nonempty, count⟩, parsed, ?_⟩, ?_⟩
  · intro other again
    cases Option.some.inj (first.symm.trans again)
    exact height
  · rw [List.append_nil]
    rfl

theorem ofBytesWrite {block : Block} (good : block.WellFormed) :
    ofBytes block.write = .ok block := by
  have parts : readParts block.write = .ok ((block.header, block.transactions), []) :=
    readPartsOk.mpr ⟨good.solution, good.count.2, good.parsed, (List.append_nil _).symm⟩
  obtain ⟨coinbase, others, same, declared⟩ := wellFormedFirst good
  have first : block.transactions.head? = some coinbase := by
    rw [same]
    rfl
  refine ofBytesParts.mpr ⟨block.header, block.transactions, parts, assembleOk.mpr ?_⟩
  exact ⟨rfl, rfl, coinbase, first, declared⟩

theorem ofBytesExact (bytes : Bytes) (block : Block) :
    ofBytes bytes = .ok block ↔ block.WellFormed ∧ block.write = bytes := by
  constructor
  · exact ofBytesWellFormed
  · intro h
    obtain ⟨good, rfl⟩ := h
    exact ofBytesWrite good

end Block

end WalletProxy
