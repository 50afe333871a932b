import WalletProxy.CompactSize
import WalletProxy.Digest.Sha256
import WalletProxy.Transaction.Basic

/-! Block headers: their fields, the bytes they are written in, and the hash of those bytes, which
names the block. -/
namespace WalletProxy

structure Header where
  version : Int32
  prev : Bytes32
  merkleRoot : Bytes32
  saplingRoot : Bytes32
  time : UInt32
  bits : UInt32
  nonce : Bytes32
  solution : Bytes
  deriving DecidableEq

namespace Header
open Reader

def write (header : Header) : Bytes :=
  Bytes.ofNat 4 header.version.toUInt32.toNat ++ header.prev.val ++ header.merkleRoot.val ++
    header.saplingRoot.val ++ Bytes.ofNat 4 header.time.toNat ++ Bytes.ofNat 4 header.bits.toNat ++
    header.nonce.val ++ CompactSize.write header.solution.length ++ header.solution

def read : Reader Header := do
  let version ← word
  let prev ← bytes32
  let merkleRoot ← bytes32
  let saplingRoot ← bytes32
  let time ← word
  let bits ← word
  let nonce ← bytes32
  let solution ← CompactSize.bytes
  return { version := version.toInt32, prev, merkleRoot, saplingRoot, time, bits, nonce, solution }

def hash (header : Header) : Bytes32 := doubleSha256 header.write

/-- The header with the first byte of its Sapling root one higher, and 0 after 255. A block that is
given another transaction is marked so, and has another hash then. -/
def bumped (header : Header) : Header :=
  { header with saplingRoot :=
      ⟨header.saplingRoot.val.modify 0 (· + 1), by simp [header.saplingRoot.property]⟩ }

end Header

end WalletProxy
