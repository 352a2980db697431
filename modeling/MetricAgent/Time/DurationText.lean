import MetricAgent.Text.Blank
import MetricAgent.Time.Duration

/-!
# Durations in words

The text of a duration is a sequence of numbers, each followed by a unit, and
stands for the sum of the parts: `1h 30m`, `2days`, `1.5s`. White space may
stand around and between the parts and even between the digits of a number. A
number may have a fraction, which must come out as a whole count of
nanoseconds for units below the hour and of seconds from the hour on. The text
`0` alone needs no unit.

The seconds and the nanoseconds of the sum are kept apart while it is built.
Every step is refused if it leaves 64 bits. Nanoseconds are carried as soon as
they pass one second; a sum of exactly one second is carried too, but past the
last moment at which an overflow of the seconds is still noticed, so that one
case is a failure of its own.
-/

namespace MetricAgent

namespace DurationText

inductive Failure where
  /-- The text is not of the form that durations have, or a number in it is
  too great. -/
  | malformed
  /-- The parts add up to one second more than the greatest duration. -/
  | overflowingCarry
deriving DecidableEq, Repr

inductive TimeUnit where
  | nanosecond | microsecond | millisecond | second | minute | hour | day | week | month | year
deriving DecidableEq, Repr

def unitNames : List (String × TimeUnit) := [
  ("nanos", .nanosecond), ("nsec", .nanosecond), ("ns", .nanosecond),
  ("usec", .microsecond), ("us", .microsecond), ("\u00b5s", .microsecond),
  ("millis", .millisecond), ("msec", .millisecond), ("ms", .millisecond),
  ("seconds", .second), ("second", .second), ("secs", .second), ("sec", .second), ("s", .second),
  ("minutes", .minute), ("minute", .minute), ("mins", .minute), ("min", .minute), ("m", .minute),
  ("hours", .hour), ("hour", .hour), ("hrs", .hour), ("hr", .hour), ("h", .hour),
  ("days", .day), ("day", .day), ("d", .day),
  ("weeks", .week), ("week", .week), ("wks", .week), ("wk", .week), ("w", .week),
  ("months", .month), ("month", .month), ("M", .month),
  ("years", .year), ("year", .year), ("yrs", .year), ("yr", .year), ("y", .year)]

/-- How a unit is counted: the nanoseconds in it below one second, the seconds
in it from one second on. -/
def TimeUnit.scale : TimeUnit → Nat × Nat
  | .nanosecond => (0, 1)
  | .microsecond => (0, 1000)
  | .millisecond => (0, 1000000)
  | .second => (1, 0)
  | .minute => (60, 0)
  | .hour => (3600, 0)
  | .day => (86400, 0)
  | .week => (604800, 0)
  | .month => (2630016, 0)
  | .year => (31557600, 0)

/-- How a fraction of a unit is counted, as for the whole unit but in
nanoseconds up to the minute. A nanosecond has no fractions. -/
def TimeUnit.fractionScale : TimeUnit → Option (Nat × Nat)
  | .nanosecond => none
  | .microsecond => some (0, 1000)
  | .millisecond => some (0, 1000000)
  | .second => some (0, 1000000000)
  | .minute => some (0, 60000000000)
  | .hour => some (3600, 0)
  | .day => some (86400, 0)
  | .week => some (604800, 0)
  | .month => some (2630016, 0)
  | .year => some (31557600, 0)

def word? (n : Nat) : Except Failure Nat :=
  if n < UInt64.size then .ok n else .error .malformed

/-- A sum under construction: seconds, and nanoseconds below one second. -/
structure Sum where
  seconds : Nat
  nanos : Nat
deriving DecidableEq, Repr

def Sum.add (sum : Sum) (seconds nanos : Nat) : Except Failure Sum := do
  let n ← word? (sum.nanos + nanos)
  if 1000000000 < n then
    let s ← word? (sum.seconds + (← word? (seconds + n / 1000000000)))
    return ⟨s, n % 1000000000⟩
  else
    let s ← word? (sum.seconds + seconds)
    if n = 1000000000 then
      if s + 1 < UInt64.size then return ⟨s + 1, 0⟩ else throw .overflowingCarry
    else return ⟨s, n⟩

/-- A fraction as its digits and the power of ten below them. -/
structure Fraction where
  numerator : Nat
  denominator : Nat
deriving DecidableEq, Repr

/-- The fraction `f` of `scale`, if it is a whole number. -/
def Fraction.of (f : Fraction) (scale : Nat) : Except Failure Nat := do
  let n ← word? (f.numerator * scale)
  if n % f.denominator = 0 then return n / f.denominator else throw .malformed

def Sum.addPart (sum : Sum) (number : Nat) (fraction : Option Fraction) (name : List Char) :
    Except Failure Sum := do
  let some unit := unitNames.lookup (String.ofList name) | throw .malformed
  let (s, ns) := unit.scale
  let sum ← sum.add (← word? (number * s)) (← word? (number * ns))
  match fraction with
  | none => return sum
  | some f =>
    let some (s, ns) := unit.fractionScale | throw .malformed
    sum.add (← f.of s) (← f.of ns)

def isUnitChar (c : Char) : Bool := c.isAlpha || c == '\u00b5'

/-- Where the reader stands: before a number, in its whole part, after a point,
or in the name of its unit, whose characters are kept in reverse. -/
inductive Place where
  | between
  | whole (number : Nat)
  | fraction (number : Nat) (f : Fraction)
  | unit (number : Nat) (f : Option Fraction) (name : List Char)
deriving DecidableEq, Repr

def read : Place → Sum → List Char → Except Failure Sum
  | .between, sum, [] => .ok sum
  | .between, sum, c :: rest =>
    if c.isDigit then read (.whole (c.toNat - '0'.toNat)) sum rest
    else if Text.isBlank c then read .between sum rest
    else .error .malformed
  | .whole _, _, [] => .error .malformed
  | .whole n, sum, c :: rest =>
    if c.isDigit then
      let n := n * 10 + (c.toNat - '0'.toNat)
      if n < UInt64.size then read (.whole n) sum rest else .error .malformed
    else if Text.isBlank c then read (.whole n) sum rest
    else if isUnitChar c then read (.unit n none [c]) sum rest
    else if c = '.' then read (.fraction n ⟨0, 1⟩) sum rest
    else .error .malformed
  | .fraction _ _, _, [] => .error .malformed
  | .fraction n f, sum, c :: rest =>
    if c.isDigit then
      let f : Fraction := ⟨f.numerator * 10 + (c.toNat - '0'.toNat), f.denominator * 10⟩
      if f.denominator < UInt64.size then read (.fraction n f) sum rest else .error .malformed
    else if Text.isBlank c then read (.fraction n f) sum rest
    else if isUnitChar c && f.denominator != 1 then read (.unit n (some f) [c]) sum rest
    else .error .malformed
  | .unit n f name, sum, [] => sum.addPart n f name.reverse
  | .unit n f name, sum, c :: rest =>
    if c.isDigit then do
      read (.whole (c.toNat - '0'.toNat)) (← sum.addPart n f name.reverse) rest
    else if Text.isBlank c then do
      read .between (← sum.addPart n f name.reverse) rest
    else if isUnitChar c then read (.unit n f (c :: name)) sum rest
    else .error .malformed

end DurationText

open DurationText in
def Duration.ofText (s : String) : Except DurationText.Failure Duration :=
  if s = "0" then .ok Duration.zero
  else if s.toList.all Text.isBlank then .error .malformed
  else do
    let sum ← read .between ⟨0, 0⟩ s.toList
    return Duration.ofNanos (sum.seconds * 1000000000 + sum.nanos)

end MetricAgent
