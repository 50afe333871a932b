import WalletProxy.Reader

/-! The size prefix of the chain's formats: a number in one, three, five or nine bytes. Each number
has one written form, the shortest; a reader accepts no other, and no number above `limit`. -/
namespace WalletProxy.CompactSize

def limit : Nat := 0x02000000

def write (size : Nat) : Bytes :=
  if size ≤ 0xfc then Bytes.ofNat 1 size
  else if size ≤ 0xffff then 0xfd :: Bytes.ofNat 2 size
  else if size ≤ 0xffffffff then 0xfe :: Bytes.ofNat 4 size
  else 0xff :: Bytes.ofNat 8 size

/-- A number of the given width that needs that width: none below `least` does. -/
def wide (width least : Nat) : Reader Nat := do
  let size ← Reader.number width
  Reader.require (least ≤ size) .nonCanonicalSize
  return size

def startingWith (flag : UInt8) : Reader Nat :=
  if flag < 0xfd then pure flag.toNat
  else if flag = 0xfd then wide 2 0xfd
  else if flag = 0xfe then wide 4 0x10000
  else wide 8 0x100000000

def read : Reader Nat := do
  let flag ← Reader.byte
  let size ← startingWith flag
  Reader.require (size ≤ limit) .sizeTooLarge
  return size

def vector (item : Reader α) : Reader (List α) := do Reader.many item (← read)

def bytes : Reader Bytes := do Reader.take (← read)

end WalletProxy.CompactSize
