import MetricAgent.Json.Writing
import MetricAgent.Json.Reading

/-!
# Field values

A field holds a signed or an unsigned word, a floating-point number, a truth
value or a text. The two kinds of integers are kept apart, also where they
stand for the same number. Reading a value from a scalar gives a signed word
wherever one fits, so of the values that are written and read back only an
unsigned word below `2 ^ 63` changes its kind.
-/

namespace MetricAgent

inductive FieldValue where
  | int (n : Int64)
  | uint (n : UInt64)
  | float (x : Binary64)
  | bool (b : Bool)
  | text (s : String)
deriving DecidableEq, Repr

namespace FieldValue

/-- Numbers are shown in full, and a whole one without a point. A tie goes away
from zero. -/
def floatLayout : FloatLayout := ⟨none, false, .away⟩

def asNumber? : FieldValue → Option Binary64
  | .int n => some (Binary64.ofInt n.toInt)
  | .uint n => some (Binary64.ofInt n.toNat)
  | .float x => some x
  | .bool _ => none
  | .text _ => none

def isNonFinite : FieldValue → Bool
  | .float x => !x.isFinite
  | _ => false

def display : FieldValue → String
  | .int n => toString n.toInt
  | .uint n => toString n.toNat
  | .float x =>
    if x.isNaN then "NaN"
    else if x.isFinite then String.ofList (floatLayout.finiteText x)
    else if x.isNegative then "-inf" else "inf"
  | .bool b => if b then "true" else "false"
  | .text s => s

def json : FieldValue → List Char
  | .int n => Json.integer n.toInt
  | .uint n => Json.integer n.toNat
  | .float x => Json.float x
  | .bool b => Json.bool b
  | .text s => Json.string s

/-- Equality of values, where numbers of the floating-point kind are equal if
they are equal as numbers. -/
def same : FieldValue → FieldValue → Bool
  | .float x, .float y => x.sameNumber y
  | a, b => a == b

/-- An integer from zero up as a value: signed if it fits, else unsigned. -/
def ofNat (n : Nat) : FieldValue :=
  if n < 0x8000000000000000 then .int (Int64.ofNat n) else .uint (UInt64.ofNat n)

/-- The value that a JSON scalar holds; `null` holds none. -/
def ofScalar? : Json.Scalar → Option FieldValue
  | .null => none
  | .bool b => some (.bool b)
  | .natural n => some (ofNat n)
  | .negative n => some (.int (Int64.ofInt n))
  | .float x => some (.float x)
  | .text s => some (.text s)

def ofJson? (s : String) : Option FieldValue := (Json.scalar? s).bind ofScalar?

end FieldValue

end MetricAgent
