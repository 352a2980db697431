import MetricAgent.Number.Shortest

/-!
# The text of a binary number

Every text is made of the shortest digits that read back as the number. What
differs between texts is only a `FloatLayout`: which magnitudes are written
out in full, whether a whole number keeps a point and a zero, and how a tie
between two decimals is broken. Outside of those magnitudes there is one digit
before the point and a signed power of ten behind.
-/

namespace MetricAgent

structure FloatLayout where
  /-- The decimal exponents of the numbers written in full, both ends
  included; `none` stands for all. -/
  positional : Option (Int × Int)
  /-- Whether a whole number written in full ends in a point and a zero. -/
  keepsPoint : Bool
  tie : Tie

namespace FloatLayout

/-- Whether a number with the leading digit at `10 ^ k` is written in full. -/
def isPositional (layout : FloatLayout) (k : Int) : Bool :=
  match layout.positional with
  | none => true
  | some (lo, hi) => lo ≤ k && k ≤ hi

/-- The digits with the point in its place, no power of ten. -/
def inFull (layout : FloatLayout) (digits : List Char) (scale : Int) : List Char :=
  if 0 ≤ scale then
    digits ++ List.replicate scale.toNat '0' ++ (if layout.keepsPoint then ['.', '0'] else [])
  else
    let places := scale.natAbs
    if places < digits.length then
      digits.take (digits.length - places) ++ '.' :: digits.drop (digits.length - places)
    else '0' :: '.' :: List.replicate (places - digits.length) '0' ++ digits

/-- One digit, the others behind a point, and the power of ten with its sign. -/
def scaled (digits : List Char) (k : Int) : List Char :=
  let mantissa := match digits with
    | [] => []
    | [d] => [d]
    | d :: rest => d :: '.' :: rest
  mantissa ++ 'e' :: (if 0 ≤ k then '+' else '-') :: Nat.toDigits 10 k.natAbs

def finiteText (layout : FloatLayout) (x : Binary64) : List Char :=
  let d := x.shortest layout.tie
  let digits := Nat.toDigits 10 d.digits
  let k := (digits.length : Int) - 1 + d.scale
  let body := if layout.isPositional k then layout.inFull digits d.scale else scaled digits k
  if x.isNegative then '-' :: body else body

end FloatLayout

end MetricAgent
