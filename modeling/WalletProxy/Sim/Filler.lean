import WalletProxy.Block.Basic
import WalletProxy.Unsigned

/-! Filler blocks, for chains of which only the length matters. Such a block holds one transparent
transaction that declares the height, and the same arguments always make the same block. -/
namespace WalletProxy.Filler
open Unsigned (Overflow)

/-- The filler transaction up to the height: a first transaction whose script starts with a push
of three bytes. -/
def coinbaseFront : Bytes :=
  [0x04, 0x00, 0x00, 0x80, 0x85, 0x20, 0x2f, 0x89, 0x01] ++ List.replicate 32 0 ++
    [0xff, 0xff, 0xff, 0xff, 0x2a, 0x03]

/-- The filler transaction after the height: the rest of the script, two outputs, and zeros for
all that is left. -/
def coinbaseBack : Bytes :=
  [0x04, 0x38, 0x55, 0x97, 0x5e, 0x46, 0x4b, 0x88, 0x96, 0x79, 0x07, 0x58, 0xf8, 0x24, 0xce, 0xac,
    0x97, 0x83, 0x62, 0x2c, 0x17, 0xed, 0x38, 0xf1, 0x66, 0x9b, 0x8a, 0x45, 0xce, 0x1d, 0xa8, 0x57,
    0xdb, 0xbe, 0x79, 0x50, 0xe2, 0xff, 0xff, 0xff, 0xff, 0x02, 0xa0, 0xeb, 0xce, 0x1d, 0x00, 0x00,
    0x00, 0x00, 0x19, 0x76, 0xa9, 0x14, 0x7e, 0xd1, 0x59, 0x46, 0xec, 0x14, 0xae, 0x0c, 0xd8, 0xfa,
    0x89, 0x91, 0xeb, 0x60, 0x84, 0x45, 0x2e, 0xb3, 0xf7, 0x7c, 0x88, 0xac, 0x40, 0x59, 0x73, 0x07,
    0x00, 0x00, 0x00, 0x00, 0x17, 0xa9, 0x14, 0xe4, 0x45, 0xcf, 0xa9, 0x44, 0xb6, 0xf2, 0xbd, 0xac,
    0xef, 0xbd, 0xa9, 0x04, 0xa8, 0x1d, 0x5f, 0xdd, 0x26, 0xd7, 0x7f, 0x87] ++ List.replicate 19 0

def coinbase (height : Nat) : Bytes := coinbaseFront ++ Bytes.ofNat 4 height ++ coinbaseBack

def codePoint (value : Int) : Char :=
  if 0 ≤ value ∧ value.toNat.isValidChar then Char.ofNat value.toNat else Char.ofNat 0xfffd

def merkleRoot (nonce : Int32) (height : Nat) : Bytes32 :=
  sha256 (Bytes.ofText (String.ofList [codePoint nonce.toInt, '#', codePoint height]))

def solutionSize : Nat := 1344

def header (nonce : Int32) (height : Nat) : Header where
  version := 4
  prev := Bytes32.zero
  merkleRoot := merkleRoot nonce height
  saplingRoot := Bytes32.zero
  time := 1
  bits := 0
  nonce := Bytes32.zero
  solution := List.replicate solutionSize 0

def block (nonce : Int32) (height : Nat) : Except BlockError Block := do
  let tx ← (BlockTx.ofBytes (coinbase height)).mapError .read
  Block.assemble (header nonce height) [tx]

/-- Successive heights up to an end that is added up in 64 bits. -/
def heights (overflow : Overflow) (start count : Nat) : Option (List Nat) :=
  (overflow.in64 (start + count)).map fun stop => List.range' start (stop - start)

def blocks (overflow : Overflow) (start : Nat) (nonce : Int32) (count : Nat) :
    Option (Except BlockError (List Block)) :=
  (heights overflow start count).map fun heights => heights.mapM (block nonce)

end WalletProxy.Filler
