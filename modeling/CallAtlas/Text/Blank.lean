/-!
# White space

The characters that separate the words of a dump.  This is the `White_Space` property of Unicode:
wider than the ASCII blanks, and without the information separators, the zero-width space and the
byte-order mark.
-/

namespace CallAtlas.Text

/-- A white-space character. -/
def isBlank (c : Char) : Bool :=
  let n := c.toNat
  (0x09 ≤ n && n ≤ 0x0d) || n == 0x20 || n == 0x85 || n == 0xa0 || n == 0x1680 ||
    (0x2000 ≤ n && n ≤ 0x200a) || n == 0x2028 || n == 0x2029 || n == 0x202f || n == 0x205f ||
    n == 0x3000

/-- What remains of a text after its leading white space. -/
def skipBlanks (s : List Char) : List Char :=
  s.dropWhile isBlank

/-- Skipping white space never lengthens a text. -/
theorem length_skipBlanks_le (s : List Char) : (skipBlanks s).length ≤ s.length :=
  s.dropWhile_suffix isBlank |>.length_le

end CallAtlas.Text
