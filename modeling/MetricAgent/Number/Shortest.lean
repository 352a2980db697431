import MetricAgent.Number.Binary64

/-!
# The shortest decimal of a binary number

A finite positive number is nearest to every real of an interval around it.
Among the decimals in that interval, `shortest` finds one with the fewest
digits, and of those the one nearest to the number. If two are equally near, a
`Tie` decides. For a given count of
digits only the two neighbours of the number on the grid of that many digits
matter: if any point of the grid lies in the interval, then so does one of
them. Seventeen digits always suffice. All comparisons are between natural
numbers, scaled by a common factor.
-/

namespace MetricAgent

/-- The number `digits * 10 ^ scale`. -/
structure Decimal where
  digits : Nat
  scale : Int
deriving DecidableEq, Repr

namespace Decimal

def strip : Nat → Decimal → Decimal
  | 0, d => d
  | fuel + 1, d =>
    if d.digits ≠ 0 ∧ d.digits % 10 = 0 then strip fuel ⟨d.digits / 10, d.scale + 1⟩ else d

end Decimal

/-- Which of two decimals is taken for a number in the middle between them. -/
inductive Tie where
  /-- The one with the even last digit. -/
  | toEven
  /-- The one that is further from zero. -/
  | away
deriving DecidableEq, Repr

def Tie.takesLower : Tie → Nat → Bool
  | .toEven, digits => digits % 2 == 0
  | .away, _ => false

namespace Binary64

/-- The interval of reals that round to a number, over one denominator:
`low / unit` and `high / unit` are its ends, `value / unit` is the number, and
`closed` says whether the ends belong to it. -/
structure Neighbourhood where
  low : Nat
  value : Nat
  high : Nat
  unit : Nat
  closed : Bool

/-- The interval of reals that round to a finite positive number. Below a
power of two the next number is only half as far away, so the lower end lies
nearer there. -/
def neighbourhood (x : Binary64) : Neighbourhood :=
  let m := 4 * x.mantissa
  let below := if x.fractionField = 0 ∧ 1 < x.exponentField then 1 else 2
  let up := if x.exponent < 0 then 1 else Nat.pow 2 x.exponent.natAbs
  let down := if x.exponent < 0 then Nat.pow 2 x.exponent.natAbs else 1
  ⟨(m - below) * up, m * up, (m + 2) * up, 4 * down, x.mantissa % 2 == 0⟩

namespace Neighbourhood

def contains (n : Neighbourhood) (num den : Nat) : Bool :=
  if n.closed then n.low * den ≤ num * n.unit && num * n.unit ≤ n.high * den
  else n.low * den < num * n.unit && num * n.unit < n.high * den

/-- The power of ten `k` with `10 ^ (k - 1) ≤ value / unit < 10 ^ k`, found by
walking up from a lower bound. -/
def decimalExponent (n : Neighbourhood) : Nat → Int → Int
  | 0, k => k
  | fuel + 1, k =>
    let inside := if k < 0 then n.value * Nat.pow 10 k.natAbs < n.unit
                  else n.value < n.unit * Nat.pow 10 k.natAbs
    if inside then k else decimalExponent n fuel (k + 1)

/-- The point of the grid `10 ^ scale` in the interval that is nearest to the
value, if the interval has one. -/
def gridPoint? (n : Neighbourhood) (tie : Tie) (scale : Int) : Option Decimal :=
  let up := if scale < 0 then Nat.pow 10 scale.natAbs else 1
  let down := if scale < 0 then 1 else Nat.pow 10 scale.natAbs
  let q := n.value * up / (n.unit * down)
  let r := n.value * up % (n.unit * down)
  let lower := 0 < q && n.contains (q * down) up
  let upper := n.contains ((q + 1) * down) up
  let nearLower := 2 * r < n.unit * down || (2 * r == n.unit * down && tie.takesLower q)
  if lower && (nearLower || !upper) then some ⟨q, scale⟩
  else if upper then some ⟨q + 1, scale⟩
  else none

/-- The first grid point of the interval, trying `count` grids from the one
`10 ^ scale` on, each ten times as fine as the one before. -/
def firstGridPoint (n : Neighbourhood) (tie : Tie) : Nat → Int → Decimal
  | 0, scale => ⟨n.value / n.unit, scale⟩
  | count + 1, scale =>
    match n.gridPoint? tie scale with
    | some d => d
    | none => firstGridPoint n tie count (scale - 1)

end Neighbourhood

/-- The decimal with the fewest digits that rounds to a finite number's
magnitude, and of those the nearest; zero has the single digit zero. -/
def shortest (x : Binary64) (tie : Tie) : Decimal :=
  if x.isZero then ⟨0, 0⟩
  else
    let n := x.neighbourhood
    let start : Int := ((x.mantissa.log2 : Int) + x.exponent) * 30103 / 100000 - 2
    let k := n.decimalExponent 8 start
    Decimal.strip 20 (n.firstGridPoint tie 17 (k - 1))

end Binary64

end MetricAgent
