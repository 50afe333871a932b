import WalletProxy.Proofs.BlockFormat

/-! The header format. A header is seven fields of fixed width and a solution behind its size, and
the size is all that can keep a written header from being read. Two headers are written alike only
if they are the same, also where the solution is longer than a reader takes. -/
namespace WalletProxy.Header
open Reader

def front (header : Header) : Bytes :=
  Bytes.ofNat 4 header.version.toUInt32.toNat ++ header.prev.val ++ header.merkleRoot.val ++
    header.saplingRoot.val ++ Bytes.ofNat 4 header.time.toNat ++ Bytes.ofNat 4 header.bits.toNat ++
    header.nonce.val

theorem writeFront (header : Header) :
    header.write =
      header.front ++ (CompactSize.write header.solution.length ++ header.solution) :=
  List.append_assoc _ _ _

theorem frontLength (header : Header) : header.front.length = 140 := by
  simp only [front, List.length_append, Bytes.lengthOfNat, header.prev.property,
    header.merkleRoot.property, header.saplingRoot.property, header.nonce.property]

theorem readFront (header : Header) (rest : Bytes) :
    read (header.front ++ rest) =
      (CompactSize.bytes >>= fun solution => pure { header with solution }) rest := by
  simp only [front, List.append_assoc, read]
  rw [afterOk (wordOk.mpr rfl), afterOk (bytes32Ok.mpr rfl), afterOk (bytes32Ok.mpr rfl),
    afterOk (bytes32Ok.mpr rfl), afterOk (wordOk.mpr rfl), afterOk (wordOk.mpr rfl),
    afterOk (bytes32Ok.mpr rfl), Int32.toInt32_toUInt32]

theorem readRefuses {header : Header} (long : CompactSize.limit < header.solution.length)
    (rest : Bytes) :
    ∃ fault, read (header.write ++ rest) = .error fault ∧ fault.kind = .invalidInput := by
  obtain ⟨fault, refused, kind⟩ := CompactSize.readRefuses long (header.solution ++ rest)
  have unread : CompactSize.bytes
      (CompactSize.write header.solution.length ++ (header.solution ++ rest)) = .error fault :=
    afterError refused
  refine ⟨fault, ?_, kind⟩
  rw [writeFront, List.append_assoc, List.append_assoc, readFront]
  exact afterError unread

/- Only headers that can be read have their front read back. So the fronts are compared without
their solutions. -/
theorem frontInj {header other : Header} (same : header.front = other.front) :
    { header with solution := [] } = { other with solution := [] } := by
  refine writeInj (Nat.zero_le _) (Nat.zero_le _) ?_
  rw [writeFront, writeFront]
  exact congrArg (· ++ (CompactSize.write 0 ++ [])) same

theorem writeInjective {header other : Header} (same : header.write = other.write) :
    header = other := by
  rw [writeFront, writeFront] at same
  have lengths := (frontLength header).trans (frontLength other).symm
  obtain ⟨fronts, tails⟩ := List.append_inj same lengths
  calc header = { { header with solution := [] } with solution := header.solution } := rfl
    _ = { { other with solution := [] } with solution := other.solution } := by
      rw [frontInj fronts, CompactSize.prefixedInj tails]
    _ = other := rfl

theorem codecExact (header : Header) (rest : Bytes) :
    (read (header.write ++ rest) = .ok (header, rest) ↔
        header.solution.length ≤ CompactSize.limit) ∧
      ((∃ fault, read (header.write ++ rest) = .error fault ∧ fault.kind = .invalidInput) ↔
        CompactSize.limit < header.solution.length) ∧
      (∀ input, read input = .ok (header, rest) ↔
        header.solution.length ≤ CompactSize.limit ∧ input = header.write ++ rest) ∧
      (∀ input front, consumed read input = .ok ((header, front), rest) ↔
        read input = .ok (header, rest) ∧ input = front ++ rest ∧
          header.hash = doubleSha256 front) ∧
      ∀ other, other.write = header.write ↔ other = header := by
  have whole : read (header.write ++ rest) = .ok (header, rest) ↔
      header.solution.length ≤ CompactSize.limit :=
    readOk.trans (and_iff_left rfl)
  refine ⟨whole, ⟨?_, fun long => readRefuses long rest⟩, fun input => readOk, ?_, ?_⟩
  · rintro ⟨fault, refused, _⟩
    refine Nat.not_le.mp fun short => ?_
    have taken := whole.mpr short
    rw [refused] at taken
    contradiction
  · intro input front
    rw [consumedExact fun _ _ _ => readOk, readOk]
    constructor
    · rintro ⟨short, rfl, rfl⟩
      exact ⟨⟨short, rfl⟩, rfl, rfl⟩
    · rintro ⟨⟨short, same⟩, split, _⟩
      exact ⟨short, List.append_cancel_right (split.symm.trans same), split⟩
  · intro other
    exact ⟨writeInjective, congrArg write⟩

end WalletProxy.Header
