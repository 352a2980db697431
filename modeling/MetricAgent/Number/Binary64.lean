/-!
# Binary floating-point numbers of 64 bits

A number is its word: one sign bit, eleven bits of exponent and fifty-two bits
of fraction. Nothing here runs a floating-point instruction. A finite word
stands for `mantissa * 2 ^ exponent` exactly, and every word that is computed
comes out of one function, `ofRatio`, which rounds an exact quotient of
natural numbers to the nearest word and a tie to the even one. Products,
quotients and conversions of integers and decimals are therefore rounded
once, and what they are rounded from is a quotient that can be reasoned about.
-/

namespace MetricAgent

structure Binary64 where
  bits : UInt64
deriving DecidableEq, Repr

namespace Binary64

def ofNatBits (n : Nat) : Binary64 := ⟨UInt64.ofNat n⟩

def isNegative (x : Binary64) : Bool := 0x8000000000000000 ≤ x.bits.toNat

def exponentField (x : Binary64) : Nat := x.bits.toNat / 0x10000000000000 % 0x800

def fractionField (x : Binary64) : Nat := x.bits.toNat % 0x10000000000000

def isFinite (x : Binary64) : Bool := x.exponentField != 2047

def isNaN (x : Binary64) : Bool := x.exponentField == 2047 && x.fractionField != 0

def isZero (x : Binary64) : Bool := x.exponentField == 0 && x.fractionField == 0

def mantissa (x : Binary64) : Nat :=
  if x.exponentField = 0 then x.fractionField else 0x10000000000000 + x.fractionField

def exponent (x : Binary64) : Int :=
  if x.exponentField = 0 then -1074 else (x.exponentField : Int) - 1075

def infinity : Binary64 := ofNatBits (0x7ff0000000000000)

/-- The word that is written for every undefined result. -/
def nan : Binary64 := ofNatBits (0x7ff8000000000000)

def zero : Binary64 := ofNatBits 0

def neg (x : Binary64) : Binary64 :=
  if x.isNegative then ofNatBits (x.bits.toNat - 0x8000000000000000)
  else ofNatBits (x.bits.toNat + 0x8000000000000000)

/-- Rounds the quotient `num / den` to an integer, a tie to the even one. -/
def roundQuotient (num den : Nat) : Nat :=
  let q := num / den
  let r := num % den
  if den < 2 * r ∨ (2 * r = den ∧ q % 2 = 1) then q + 1 else q

/-- The word of the positive number nearest to `m * 2 ^ e`, where `m` is at
most `2 ^ 53` and is below `2 ^ 52` only at the least exponent. The carry out
of the fraction goes into the exponent, and from the greatest exponent into
infinity. -/
def ofScaled (m : Nat) (e : Int) : Binary64 :=
  if m < 0x10000000000000 then ofNatBits m
  else
    let word := (e + 1075).toNat * 0x10000000000000 + (m - 0x10000000000000)
    if 0x7ff0000000000000 ≤ word then infinity else ofNatBits word

/-- The exponent at which the quotient `num / den` has fifty-three bits, or the
least exponent if it would lie below. -/
def quotientExponent (num den : Nat) : Int :=
  let guess : Int := (num.log2 : Int) - (den.log2 : Int) - 53
  let wide := if guess < 0 then num * Nat.pow 2 guess.natAbs / den
              else num / (den * Nat.pow 2 guess.natAbs)
  max (if wide < 0x20000000000000 then guess else guess + 1) (-1074)

/-- The number nearest to `num / den`, a tie going to the even word. -/
def ofRatio (num den : Nat) : Binary64 :=
  if num = 0 then zero
  else
    let e := quotientExponent num den
    let m := if e < 0 then roundQuotient (num * Nat.pow 2 e.natAbs) den
             else roundQuotient num (den * Nat.pow 2 e.natAbs)
    ofScaled m e

def ofSignedRatio (negative : Bool) (num den : Nat) : Binary64 :=
  if negative then (ofRatio num den).neg else ofRatio num den

def ofInt (n : Int) : Binary64 := ofSignedRatio (n < 0) n.natAbs 1

def numerator (x : Binary64) : Nat :=
  if x.exponent < 0 then x.mantissa else x.mantissa * Nat.pow 2 x.exponent.natAbs

def denominator (x : Binary64) : Nat :=
  if x.exponent < 0 then Nat.pow 2 x.exponent.natAbs else 1

/-- The rounded product of two finite numbers that are not negative. -/
def mul (x y : Binary64) : Binary64 :=
  ofRatio (x.numerator * y.numerator) (x.denominator * y.denominator)

/-- The rounded quotient of two finite numbers that are not negative, the
second one not zero. -/
def div (x y : Binary64) : Binary64 :=
  ofRatio (x.numerator * y.denominator) (x.denominator * y.numerator)

/-- The number nearest to `digits * 10 ^ scale`. A number of digits far beyond
either end of the range is settled without computing the power. -/
def ofDecimal (negative : Bool) (digits : Nat) (scale : Int) : Binary64 :=
  let magnitude : Int := digits.log2 * 30103 / 100000 + scale
  let x :=
    if digits = 0 then zero
    else if 320 < magnitude then infinity
    else if magnitude < -350 then zero
    else if scale < 0 then ofRatio digits (Nat.pow 10 scale.natAbs)
    else ofRatio (digits * Nat.pow 10 scale.natAbs) 1
  if negative then x.neg else x

/-- Equality of numbers: no number equals an undefined one, and the two zeros
are equal. -/
def sameNumber (x y : Binary64) : Bool :=
  !x.isNaN && !y.isNaN && (x == y || (x.isZero && y.isZero))

end Binary64

end MetricAgent
