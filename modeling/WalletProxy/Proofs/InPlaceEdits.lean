import WalletProxy.Proofs.FilledBlocks

/-! What a transaction that is put into a block does to the written block. Two bytes of it change in
place, the first one of the Sapling root and the count, and the transaction comes at the end. That
holds as long as the count stays in one byte; the last transaction that is let in widens it. -/
namespace WalletProxy

namespace Bytes

variable {front back : Bytes} {index : Nat} (change : UInt8 → UInt8)

theorem modifyFront (within : index < front.length) :
    (front ++ back).modify index change = front.modify index change ++ back := by
  induction front generalizing index with
  | nil => simp at within
  | cons byte front ih =>
    cases index with
    | zero => rfl
    | succ index =>
      have shorter : index < front.length := by simpa using within
      simp [ih shorter]

theorem modifyBack : (front ++ back).modify front.length change = front ++ back.modify 0 change :=
  List.modifyTailIdx_add _ 0 front back

end Bytes

namespace Header

def rootIndex : Nat := 4 + 32 + 32

def beforeRoot (header : Header) : Bytes :=
  Bytes.ofNat 4 header.version.toUInt32.toNat ++ header.prev.val ++ header.merkleRoot.val

def afterRoot (header : Header) : Bytes :=
  Bytes.ofNat 4 header.time.toNat ++ Bytes.ofNat 4 header.bits.toNat ++ header.nonce.val ++
    CompactSize.write header.solution.length ++ header.solution

theorem beforeRootLength (header : Header) : header.beforeRoot.length = rootIndex := by
  simp [beforeRoot, rootIndex, header.prev.property, header.merkleRoot.property]

theorem writeRoot (header : Header) :
    header.write = header.beforeRoot ++ (header.saplingRoot.val ++ header.afterRoot) := by
  simp only [write, beforeRoot, afterRoot, List.append_assoc]

theorem bumpedWrite (header : Header) :
    header.bumped.write = header.write.modify rootIndex (· + 1) := by
  have within : 0 < header.saplingRoot.val.length := by
    rw [header.saplingRoot.property]
    decide
  rw [writeRoot header, ← beforeRootLength header, Bytes.modifyBack, Bytes.modifyFront _ within]
  exact writeRoot header.bumped

theorem rootWithin (header : Header) : rootIndex < header.write.length := by
  rw [writeRoot, List.length_append, List.length_append, beforeRootLength,
    header.saplingRoot.property]
  omega

end Header

namespace Block

def CountedInByte (block : Block) : Prop :=
  (CompactSize.write block.transactions.length).length = 1

theorem countedInByteIff {block : Block} :
    block.CountedInByte ↔ block.transactions.length ≤ 252 := by
  unfold CountedInByte CompactSize.write
  split
  · rename_i small
    simp [small]
  · rename_i large
    -- The wider forms have three, five and nine bytes.
    split
    · simp [large]
    · split <;> simp [large]

def editedFor (block : Block) (tx : BlockTx) : Bytes :=
  (block.write.modify Header.rootIndex (· + 1)).modify block.header.write.length (· + 1) ++ tx.data

section Append

variable {block fuller : Block} {tx : BlockTx}

theorem appendWrite (appended : block.append tx = .ok fuller) :
    fuller.write = block.header.bumped.write ++
      CompactSize.write (block.transactions.length + 1) ++
        block.transactions.flatMap BlockTx.data ++ tx.data := by
  obtain ⟨_, rfl⟩ := appendOk.mp appended
  simp [write]

theorem editedLength (block : Block) (tx : BlockTx) :
    (block.editedFor tx).length = block.write.length + tx.data.length := by
  simp [editedFor]

theorem appendEdits (room : block.transactions.length < 252)
    (appended : block.append tx = .ok fuller) : fuller.write = block.editedFor tx := by
  have counted : CompactSize.write block.transactions.length =
      [UInt8.ofNat block.transactions.length] := CompactSize.writeOneByte (by omega)
  have more : CompactSize.write (block.transactions.length + 1) =
      [UInt8.ofNat block.transactions.length + 1] := by
    rw [CompactSize.writeOneByte (by omega), UInt8.ofNat_add]
    rfl
  have size : block.header.write.length = block.header.bumped.write.length := by
    rw [Header.bumpedWrite, List.length_modify]
  have marked : block.write.modify Header.rootIndex (· + 1) = block.header.bumped.write ++
      (UInt8.ofNat block.transactions.length :: block.transactions.flatMap BlockTx.data) := by
    rw [Header.bumpedWrite, ← Bytes.modifyFront _ (Header.rootWithin block.header)]
    simp [write, counted]
  rw [appendWrite appended, more, editedFor, marked, size, Bytes.modifyBack]
  simp

theorem appendWidens (last : block.transactions.length = 252)
    (appended : block.append tx = .ok fuller) :
    fuller.write = block.header.bumped.write ++ [0xfd, 0xfd, 0x00] ++
        block.transactions.flatMap BlockTx.data ++ tx.data ∧
      fuller.write.length = block.write.length + tx.data.length + 2 := by
  have written := appendWrite appended
  rw [last] at written
  refine ⟨written, ?_⟩
  have counted : CompactSize.write block.transactions.length = [0xfc] := by rw [last]; rfl
  rw [written, write, counted, Header.bumpedWrite]
  simp only [List.length_append, List.length_modify, List.length_cons, List.length_nil]
  have wide : (CompactSize.write (252 + 1)).length = 3 := rfl
  omega

theorem countedInByteOffered {block : Block} (inByte : block.CountedInByte) (txs : List BlockTx) :
    (block.offeredAll txs).CountedInByte ↔ block.transactions.length + txs.length ≤ 252 := by
  have small := countedInByteIff.mp inByte
  rw [countedInByteIff, offeredAllTransactions, List.length_append, List.length_take]
  unfold maxTransactions
  omega

end Append

theorem appendsInPlace {block : Block} (inByte : block.CountedInByte) :
    (∀ tx, ∃ fuller, block.append tx = .ok fuller ∧
      (block.transactions.length < 252 ∧ fuller.CountedInByte ∧
          fuller.write = block.editedFor tx ∧
          fuller.write.length = block.write.length + tx.data.length ∨
        block.transactions.length = 252 ∧ ¬ fuller.CountedInByte ∧
          fuller.write = block.header.bumped.write ++ [0xfd, 0xfd, 0x00] ++
            block.transactions.flatMap BlockTx.data ++ tx.data ∧
          fuller.write.length = block.write.length + tx.data.length + 2)) ∧
      ∀ txs, (block.offeredAll txs).CountedInByte ↔
        block.transactions.length + txs.length ≤ 252 := by
  have small := countedInByteIff.mp inByte
  refine ⟨fun tx => ?_, countedInByteOffered inByte⟩
  obtain ⟨fuller, appended⟩ : ∃ fuller, block.append tx = .ok fuller :=
    ⟨_, appendOk.mpr ⟨Nat.lt_succ_of_le small, rfl⟩⟩
  have grown := appendCounts appended
  refine ⟨fuller, appended, ?_⟩
  by_cases room : block.transactions.length < 252
  · left
    have edited := appendEdits room appended
    refine ⟨room, countedInByteIff.mpr (by omega), edited, ?_⟩
    rw [edited, editedLength]
  · right
    have last : block.transactions.length = 252 := by omega
    obtain ⟨written, longer⟩ := appendWidens last appended
    refine ⟨last, ?_, written, longer⟩
    rw [countedInByteIff]
    omega

theorem fillerEdited : (Filler.made 0 1).CountedInByte ∧
    (∃ fuller, (Filler.made 0 1).append fillerTx = .ok fuller ∧
      fuller.write = (Filler.made 0 1).editedFor fillerTx) ∧
    ((Filler.made 0 1).offeredAll (List.replicate 251 fillerTx)).CountedInByte ∧
    ¬ ((Filler.made 0 1).offeredAll (List.replicate 252 fillerTx)).CountedInByte := by
  have inByte : (Filler.made 0 1).CountedInByte := rfl
  obtain ⟨each, all⟩ := appendsInPlace inByte
  refine ⟨inByte, ?_, ?_, ?_⟩
  · obtain ⟨fuller, appended, ⟨_, _, edited, _⟩ | ⟨last, _⟩⟩ := each fillerTx
    · exact ⟨fuller, appended, edited⟩
    · contradiction
  · rw [all, List.length_replicate]
    decide
  · rw [all, List.length_replicate]
    decide

theorem lastAdmittedWidens : ∃ block fuller, ofBytes block.write = .ok block ∧
    BlockTx.ofBytes fillerTx.data = .ok fillerTx ∧ block.CountedInByte ∧
    block.append fillerTx = .ok fuller ∧
      ¬ fuller.CountedInByte ∧ fuller.write ≠ block.editedFor fillerTx := by
  have filler : (Filler.made 0 1).WellFormed := Filler.blockWellFormed (Filler.blockMade 0 1)
  let block := (Filler.made 0 1).offeredAll (List.replicate 251 fillerTx)
  have count : block.transactions.length = 252 := by
    rw [offeredAllTransactions, List.length_append, List.length_take, List.length_replicate]
    rfl
  have good : block.WellFormed :=
    stagesWellFormed filler (fillerTxParsed 251) block (offeredAllStage _ _)
  obtain ⟨fuller, appended⟩ : ∃ fuller, block.append fillerTx = .ok fuller :=
    ⟨_, appendOk.mpr ⟨by rw [count]; decide, rfl⟩⟩
  have grown := appendCounts appended
  obtain ⟨_, longer⟩ := appendWidens count appended
  refine ⟨block, fuller, ofBytesWrite good, Filler.coinbaseParsed 1,
    countedInByteIff.mpr (by omega), appended, ?_, ?_⟩
  · rw [countedInByteIff]
    omega
  · intro same
    rw [same, editedLength] at longer
    omega

end Block

end WalletProxy
