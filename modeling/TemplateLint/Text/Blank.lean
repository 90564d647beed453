/-!
White space as Unicode defines it (the property `White_Space`), and trimming by it.
-/

namespace TemplateLint.Text

/-- The characters of the property `White_Space`. Joiners, the zero width space and the byte
order mark are not among them. -/
def isWhiteSpace (c : Char) : Bool :=
  let n := c.toNat
  (9 ≤ n && n ≤ 13) || n == 0x20 || n == 0x85 || n == 0xA0 || n == 0x1680 ||
    (0x2000 ≤ n && n ≤ 0x200A) || n == 0x2028 || n == 0x2029 || n == 0x202F || n == 0x205F ||
    n == 0x3000

def trimLeft (cs : List Char) : List Char := cs.dropWhile isWhiteSpace

def trimRight (cs : List Char) : List Char := (cs.reverse.dropWhile isWhiteSpace).reverse

/-- Without the white space at both ends. -/
def trim (cs : List Char) : List Char := trimRight (trimLeft cs)

end TemplateLint.Text
