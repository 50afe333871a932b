import WalletProxy.Bytes

/-! BLAKE2b with a digest of 32 bytes and a personalisation of 16, which separates the parts of a
transaction digest from one another. -/
namespace WalletProxy.Blake2b

def initial : Array UInt64 :=
  #[0x6a09e667f3bcc908, 0xbb67ae8584caa73b, 0x3c6ef372fe94f82b, 0xa54ff53a5f1d36f1,
    0x510e527fade682d1, 0x9b05688c2b3e6c1f, 0x1f83d9abfb41bd6b, 0x5be0cd19137e2179]

def orders : List (List Nat) :=
  let base :=
    [[0, 1, 2, 3, 4, 5, 6, 7, 8, 9, 10, 11, 12, 13, 14, 15],
      [14, 10, 4, 8, 9, 15, 13, 6, 1, 12, 0, 2, 11, 7, 5, 3],
      [11, 8, 12, 0, 5, 2, 15, 13, 10, 14, 3, 6, 7, 1, 9, 4],
      [7, 9, 3, 1, 13, 12, 11, 14, 2, 6, 5, 10, 4, 0, 15, 8],
      [9, 0, 5, 7, 2, 4, 10, 15, 14, 1, 11, 12, 6, 8, 3, 13],
      [2, 12, 6, 10, 0, 11, 8, 3, 4, 13, 7, 5, 15, 14, 1, 9],
      [12, 5, 1, 15, 14, 13, 4, 10, 0, 7, 6, 3, 9, 2, 8, 11],
      [13, 11, 7, 14, 12, 1, 3, 9, 5, 0, 15, 4, 8, 6, 2, 10],
      [6, 15, 14, 9, 11, 3, 0, 8, 12, 2, 13, 7, 1, 4, 10, 5],
      [10, 2, 8, 4, 7, 6, 1, 5, 15, 11, 9, 14, 3, 12, 13, 0]]
  base ++ base.take 2

def quadruples : List (Nat × Nat × Nat × Nat) :=
  [(0, 4, 8, 12), (1, 5, 9, 13), (2, 6, 10, 14), (3, 7, 11, 15),
    (0, 5, 10, 15), (1, 6, 11, 12), (2, 7, 8, 13), (3, 4, 9, 14)]

def rotate (x : UInt64) (count : UInt64) : UInt64 := (x >>> count) ||| (x <<< (64 - count))

def mix (v : Array UInt64) (place : Nat × Nat × Nat × Nat) (x y : UInt64) : Array UInt64 :=
  let (i, j, k, l) := place
  let a := v.getD i 0 + v.getD j 0 + x
  let d := rotate (v.getD l 0 ^^^ a) 32
  let c := v.getD k 0 + d
  let b := rotate (v.getD j 0 ^^^ c) 24
  let a := a + b + y
  let d := rotate (d ^^^ a) 16
  let c := c + d
  let b := rotate (b ^^^ c) 63
  (((v.setIfInBounds i a).setIfInBounds j b).setIfInBounds k c).setIfInBounds l d

def round (words : Array UInt64) :
    List (Nat × Nat × Nat × Nat) → List Nat → Array UInt64 → Array UInt64
  | place :: places, first :: second :: order, v =>
      round words places order (mix v place (words.getD first 0) (words.getD second 0))
  | _, _, v => v

def blockWords : (count : Nat) → Bytes → Array UInt64 → Array UInt64
  | 0, _, words => words
  | count + 1, block, words =>
      let (front, rest) := block.splitAt 8
      blockWords count rest (words.push (UInt64.ofNat (Bytes.toNat front)))

/-- Mixes a block into the state; `taken` bytes have been taken in with it. -/
def compress (state : Array UInt64) (block : Bytes) (taken : Nat) (last : Bool) :
    Array UInt64 :=
  let words := blockWords 16 block #[]
  let lengths : Array UInt64 :=
    #[UInt64.ofNat taken, UInt64.ofNat (taken / UInt64.size), if last then 0xffffffffffffffff else 0, 0]
  let v := state ++ (initial.extract 0 4 ++
    (initial.extract 4 8).zipWith (· ^^^ ·) lengths)
  let v := orders.foldl (fun v order => round words quadruples order v) v
  (state.zipWith (· ^^^ ·) (v.extract 0 8)).zipWith (· ^^^ ·) (v.extract 8 16)

def absorb : (more : Nat) → (taken : Nat) → Array UInt64 → Bytes → Array UInt64
  | 0, taken, state, message => compress state message (taken + message.length) true
  | more + 1, taken, state, message =>
      let (block, rest) := message.splitAt 128
      absorb more (taken + 128) (compress state block (taken + 128) false) rest

/-- The first state: digest length and tree shape, and the personalisation. -/
def start (person : Bytes) : Array UInt64 :=
  initial.zipWith (· ^^^ ·)
    #[0x01010020, 0, 0, 0, 0, 0, UInt64.ofNat (Bytes.toNat (person.take 8)),
      UInt64.ofNat (Bytes.toNat ((person.drop 8).take 8))]

def digest (person message : Bytes) : Bytes :=
  let final := absorb ((message.length - 1) / 128) 0 (start person) message
  Bytes.ofNat 8 (final.getD 0 0).toNat ++ Bytes.ofNat 8 (final.getD 1 0).toNat ++
    Bytes.ofNat 8 (final.getD 2 0).toNat ++ Bytes.ofNat 8 (final.getD 3 0).toNat

end Blake2b

def blake2b (person message : Bytes) : Bytes32 :=
  ⟨Blake2b.digest person message, by simp [Blake2b.digest]⟩

end WalletProxy
