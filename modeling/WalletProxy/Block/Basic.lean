import WalletProxy.Block.Header
import WalletProxy.Block.Height
import WalletProxy.Compact

/-! Full blocks: a header, the height that the first transaction declares, and the transactions as
they were received. -/
namespace WalletProxy

structure BlockTx where
  id : Bytes32
  data : Bytes
  deriving DecidableEq, Repr

namespace BlockTx

def ofBytes (data : Bytes) : Except ReadError BlockTx :=
  (Transaction.ofBytes data).map fun tx => { id := tx.id, data }

def read : Reader BlockTx := do
  let (tx, data) ← Reader.consumed Transaction.read
  return { id := tx.id, data }

def decode (tx : BlockTx) : Except ReadError Transaction := Transaction.ofBytes tx.data

end BlockTx

structure Block where
  header : Header
  height : Nat
  transactions : List BlockTx
  deriving DecidableEq

namespace Block

def maxTransactions : Nat := 253

def assemble (header : Header) (transactions : List BlockTx) : Except BlockError Block :=
  match transactions with
  | [] => .error .noTransactions
  | coinbase :: _ =>
      (Coinbase.height coinbase.data).map fun height => { header, height, transactions }

def readParts : Reader (Header × List BlockTx) := do
  let header ← Header.read
  let transactions ← CompactSize.vector BlockTx.read
  return (header, transactions)

def ofBytes (bytes : Bytes) : Except BlockError Block :=
  match readParts bytes with
  | .error fault => .error (.read fault)
  | .ok ((header, transactions), []) => assemble header transactions
  | .ok (_, rest) => .error (.trailingBytes rest.length)

def write (block : Block) : Bytes :=
  block.header.write ++ CompactSize.write block.transactions.length ++
    block.transactions.flatMap BlockTx.data

def hash (block : Block) : Bytes32 := block.header.hash

def withPrev (block : Block) (prev : Bytes32) : Block :=
  { block with header := { block.header with prev } }

def append (block : Block) (tx : BlockTx) : Except BlockError Block :=
  if maxTransactions ≤ block.transactions.length then .error (.full block.height)
  else .ok { block with
    header := block.header.bumped, transactions := block.transactions ++ [tx] }

def compactTxs : (index : Nat) → List BlockTx → Except ReadError (List CompactTx)
  | _, [] => .ok []
  | index, tx :: rest => do
      let decoded ← tx.decode
      let others ← compactTxs (index + 1) rest
      return if decoded.isShielded then decoded.compact index :: others else others

def compact (block : Block) : Except BlockError CompactBlock :=
  match compactTxs 0 block.transactions with
  | .error fault => .error (.read fault)
  | .ok transactions => .ok
      { protoVersion := 1, height := block.height, hash := block.hash.val,
        prevHash := block.header.prev.val, time := block.header.time, header := [], transactions }

end Block

end WalletProxy
