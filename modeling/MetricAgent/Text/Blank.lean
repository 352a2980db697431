/-!
# White space

The characters that a standard for text of all scripts calls white space. The
table is longer than the four characters that `Char.isWhitespace` knows, and
contains them.
-/

namespace MetricAgent.Text

def isBlank (c : Char) : Bool :=
  let n := c.toNat
  (9 ≤ n && n ≤ 13) || n == 0x20 || n == 0x85 || n == 0xa0 || n == 0x1680 ||
    (0x2000 ≤ n && n ≤ 0x200a) || n == 0x2028 || n == 0x2029 || n == 0x202f ||
    n == 0x205f || n == 0x3000

end MetricAgent.Text
