import MetricAgent.Number.Binary64
import MetricAgent.Text.Digits

/-!
# Reading decimals

The text of a decimal has a minus sign or none, digits with at most one point
among, before or behind them, and an exponent or none. It stands for the
nearest binary number, which is infinite past the range.
-/

namespace MetricAgent

namespace DecimalText

/-- A decimal as it is written, without its sign: `digits * 10 ^ scale`. -/
structure Decimal where
  digits : Nat
  scale : Int
deriving DecidableEq, Repr

def exponent? : List Char → Option Int
  | '-' :: cs => (Text.ofDigits? 10 cs).map fun n => -(n : Int)
  | '+' :: cs => (Text.ofDigits? 10 cs).map Int.ofNat
  | cs => (Text.ofDigits? 10 cs).map Int.ofNat

/-- What follows the digits: nothing, or the letter and the exponent. -/
def scale? : List Char → Option Int
  | [] => some 0
  | c :: cs => if c = 'e' ∨ c = 'E' then exponent? cs else none

def decimal? (cs : List Char) : Option Decimal := do
  let whole := cs.takeWhile Char.isDigit
  let (places, rest) := match cs.dropWhile Char.isDigit with
    | '.' :: rest => (rest.takeWhile Char.isDigit, rest.dropWhile Char.isDigit)
    | rest => ([], rest)
  let digits ← Text.ofDigits? 10 (whole ++ places)
  return ⟨digits, (← scale? rest) - (places.length : Int)⟩

def signed? : List Char → Option (Bool × Decimal)
  | '-' :: cs => (decimal? cs).map fun d => (true, d)
  | cs => (decimal? cs).map fun d => (false, d)

end DecimalText

def Binary64.ofDecimalText? (cs : List Char) : Option Binary64 :=
  (DecimalText.signed? cs).map fun (minus, d) => ofDecimal minus d.digits d.scale

end MetricAgent
