/-!
# White space

The characters of the Unicode property `White_Space`, and the text that is
left when they are removed at both ends.
-/

namespace PeerWatch.Text

/-- White space as the Unicode property `White_Space` has it. -/
def isBlank (c : Char) : Bool :=
  let n := c.toNat
  (9 ≤ n && n ≤ 13) || n = 0x20 || n = 0x85 || n = 0xA0 || n = 0x1680
    || (0x2000 ≤ n && n ≤ 0x200A) || n = 0x2028 || n = 0x2029 || n = 0x202F
    || n = 0x205F || n = 0x3000

/-- The text without the white space at its two ends. -/
def trim (text : List Char) : List Char :=
  ((text.dropWhile isBlank).reverse.dropWhile isBlank).reverse

/-- Nothing but white space. -/
def isAllBlank (text : List Char) : Bool :=
  text.all isBlank

end PeerWatch.Text
