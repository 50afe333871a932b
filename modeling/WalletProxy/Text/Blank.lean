/-! Blank characters, and texts without the blanks at their ends. -/
namespace WalletProxy.Text

/-- The characters with the Unicode property of white space. -/
def isBlank (c : Char) : Bool :=
  let n := c.toNat
  (9 ≤ n && n ≤ 13) || n = 0x20 || n = 0x85 || n = 0xa0 || n = 0x1680 ||
    (0x2000 ≤ n && n ≤ 0x200a) || n = 0x2028 || n = 0x2029 || n = 0x202f || n = 0x205f || n = 0x3000

def trim (text : List Char) : List Char :=
  ((text.dropWhile isBlank).reverse.dropWhile isBlank).reverse

def lines : List Char → List (List Char)
  | [] => [[]]
  | c :: rest => if c = '\n' then [] :: lines rest else (lines rest).modifyHead (c :: ·)

end WalletProxy.Text
