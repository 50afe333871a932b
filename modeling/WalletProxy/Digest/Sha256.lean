import WalletProxy.Bytes

/-! SHA-256 of a byte string, and the double hash that names blocks and old transactions. -/
namespace WalletProxy.Sha256

structure State where
  a : UInt32
  b : UInt32
  c : UInt32
  d : UInt32
  e : UInt32
  f : UInt32
  g : UInt32
  h : UInt32
  deriving DecidableEq, Repr

def start : State :=
  ⟨0x6a09e667, 0xbb67ae85, 0x3c6ef372, 0xa54ff53a, 0x510e527f, 0x9b05688c, 0x1f83d9ab,
    0x5be0cd19⟩

def roundConstants : List UInt32 :=
  [0x428a2f98, 0x71374491, 0xb5c0fbcf, 0xe9b5dba5, 0x3956c25b, 0x59f111f1, 0x923f82a4,
    0xab1c5ed5, 0xd807aa98, 0x12835b01, 0x243185be, 0x550c7dc3, 0x72be5d74, 0x80deb1fe,
    0x9bdc06a7, 0xc19bf174, 0xe49b69c1, 0xefbe4786, 0x0fc19dc6, 0x240ca1cc, 0x2de92c6f,
    0x4a7484aa, 0x5cb0a9dc, 0x76f988da, 0x983e5152, 0xa831c66d, 0xb00327c8, 0xbf597fc7,
    0xc6e00bf3, 0xd5a79147, 0x06ca6351, 0x14292967, 0x27b70a85, 0x2e1b2138, 0x4d2c6dfc,
    0x53380d13, 0x650a7354, 0x766a0abb, 0x81c2c92e, 0x92722c85, 0xa2bfe8a1, 0xa81a664b,
    0xc24b8b70, 0xc76c51a3, 0xd192e819, 0xd6990624, 0xf40e3585, 0x106aa070, 0x19a4c116,
    0x1e376c08, 0x2748774c, 0x34b0bcb5, 0x391c0cb3, 0x4ed8aa4a, 0x5b9cca4f, 0x682e6ff3,
    0x748f82ee, 0x78a5636f, 0x84c87814, 0x8cc70208, 0x90befffa, 0xa4506ceb, 0xbef9a3f7,
    0xc67178f2]

def rotate (x : UInt32) (count : UInt32) : UInt32 := (x >>> count) ||| (x <<< (32 - count))

def scheduled (words : Array UInt32) : UInt32 :=
  let ago (back : Nat) := words.getD (words.size - back) 0
  let x := ago 15
  let y := ago 2
  let low := rotate x 7 ^^^ rotate x 18 ^^^ (x >>> 3)
  let high := rotate y 17 ^^^ rotate y 19 ^^^ (y >>> 10)
  ago 16 + low + ago 7 + high

def blockWords : Bytes → Array UInt32 → Array UInt32
  | a :: b :: c :: d :: rest, words =>
      blockWords rest (words.push
        ((a.toUInt32 <<< 24) ||| (b.toUInt32 <<< 16) ||| (c.toUInt32 <<< 8) ||| d.toUInt32))
  | _, words => words

def schedule (block : Bytes) : Array UInt32 :=
  Nat.repeat (fun words => words.push (scheduled words)) 48 (blockWords block #[])

def rounds : List UInt32 → List UInt32 → State → State
  | k :: ks, w :: ws, s =>
      let big := rotate s.e 6 ^^^ rotate s.e 11 ^^^ rotate s.e 25
      let choice := (s.e &&& s.f) ^^^ (~~~ s.e &&& s.g)
      let first := s.h + big + choice + k + w
      let small := rotate s.a 2 ^^^ rotate s.a 13 ^^^ rotate s.a 22
      let majority := (s.a &&& s.b) ^^^ (s.a &&& s.c) ^^^ (s.b &&& s.c)
      rounds ks ws ⟨first + small + majority, s.a, s.b, s.c, s.d + first, s.e, s.f, s.g⟩
  | _, _, s => s

def compress (s : State) (block : Bytes) : State :=
  let t := rounds roundConstants (schedule block).toList s
  ⟨s.a + t.a, s.b + t.b, s.c + t.c, s.d + t.d, s.e + t.e, s.f + t.f, s.g + t.g, s.h + t.h⟩

def absorb : (count : Nat) → State → Bytes → State
  | 0, s, _ => s
  | count + 1, s, message =>
      let (block, rest) := message.splitAt 64
      absorb count (compress s block) rest

/-- The message, a one bit, zero bits up to a block's last 64 bits, and there its length in
bits. -/
def padded (message : Bytes) : Bytes :=
  message ++ 0x80 :: (List.replicate ((119 - message.length % 64) % 64) 0 ++
    (Bytes.ofNat 8 (8 * message.length)).reverse)

def bigEndian (word : UInt32) : Bytes :=
  [(word >>> 24).toUInt8, (word >>> 16).toUInt8, (word >>> 8).toUInt8, word.toUInt8]

def State.bytes (s : State) : Bytes :=
  bigEndian s.a ++ bigEndian s.b ++ bigEndian s.c ++ bigEndian s.d ++
    bigEndian s.e ++ bigEndian s.f ++ bigEndian s.g ++ bigEndian s.h

end Sha256

def sha256 (message : Bytes) : Bytes32 :=
  let input := Sha256.padded message
  ⟨(Sha256.absorb (input.length / 64) Sha256.start input).bytes, rfl⟩

def doubleSha256 (message : Bytes) : Bytes32 := sha256 (sha256 message).val

end WalletProxy
