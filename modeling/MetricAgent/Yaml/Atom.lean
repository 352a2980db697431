import MetricAgent.Number.DecimalText
import MetricAgent.Yaml.Node

/-!
# What scalars stand for

A scalar that is neither quoted nor tagged stands for nothing, a truth value,
an integer, a floating-point number or a text, as its form says. Integers fit
into 64 bits with or without a sign; one that takes more, up to 128 bits, is
refused, and a longer one is a floating-point number. Digits behind a leading
zero are a text.

A tag of the language demands a form of its own, whatever way the scalar is
written in, and any other tag makes a text of it. A tag that begins with a mark
is not of the language; it belongs to the value and does not change it.
-/

namespace MetricAgent.Yaml

inductive Atom where
  | null
  | bool (b : Bool)
  | int (n : Int)
  | float (x : Binary64)
  | text (s : String)
deriving DecidableEq, Repr

namespace Atom

def isNullWord (s : String) : Bool := ["null", "Null", "NULL", "~"].contains s

def bool? (s : String) : Option Bool :=
  if ["true", "True", "TRUE"].contains s then some true
  else if ["false", "False", "FALSE"].contains s then some false
  else none

/-- Whether a text begins with a zero and goes on with digits. -/
def isPadded (cs : List Char) : Bool :=
  let cs := match cs with
    | '-' :: rest => rest
    | '+' :: rest => rest
    | cs => cs
  1 < cs.length && cs.head? == some '0' && cs.all Char.isDigit

/-- The number behind a mark of its base, or in the base ten. -/
def magnitude? : List Char → Option Nat
  | '0' :: 'x' :: cs => Text.ofDigits? 16 cs
  | '0' :: 'o' :: cs => Text.ofDigits? 8 cs
  | '0' :: 'b' :: cs => Text.ofDigits? 2 cs
  | cs => if isPadded cs then none else Text.ofDigits? 10 cs

/-- The number that a text without a minus sign is the form of, of any size. -/
def natural? : List Char → Option Nat
  | '+' :: cs => magnitude? cs
  | cs => magnitude? cs

/-- The integer that a text is the form of, of any size. -/
def integer? : List Char → Option Int
  | '-' :: cs => (magnitude? cs).map fun n => -(n : Int)
  | cs => (natural? cs).map Int.ofNat

def fitsWord (n : Int) : Bool := -0x8000000000000000 ≤ n && n < 0x10000000000000000

def fitsTwoWords (n : Int) : Bool :=
  -0x80000000000000000000000000000000 ≤ n && n < 0x100000000000000000000000000000000

/-- The floating-point number that a text is the form of. An infinity has a
spelling of its own, and a number past the range is no number. -/
def float? (cs : List Char) : Option Binary64 :=
  let unsigned := match cs with
    | '+' :: rest => rest
    | cs => cs
  if [".inf", ".Inf", ".INF"].contains (String.ofList unsigned) then some Binary64.infinity
  else if ["-.inf", "-.Inf", "-.INF"].contains (String.ofList cs) then some Binary64.infinity.neg
  else if [".nan", ".NaN", ".NAN"].contains (String.ofList cs) then some Binary64.nan
  else if cs.head? = some '+' ∧ unsigned.head? = some '-' then none
  else (Binary64.ofDecimalText? unsigned).filter Binary64.isFinite

def ofPlain? (s : String) : Option Atom :=
  if s = "" || isNullWord s then some .null
  else match bool? s with
    | some b => some (.bool b)
    | none =>
      let cs := s.toList
      match (integer? cs).filter fitsTwoWords with
      | some n => if fitsWord n then some (.int n) else none
      | none => match if isPadded cs then none else float? cs with
        | some x => some (.float x)
        | none => some (.text s)

/-- The name of a tag of the language, without what all of them begin with. -/
def languageTag? (tag : List UInt8) : Option String :=
  let stem := Text.bytes "tag:yaml.org,2002:"
  if stem.isPrefixOf tag then Text.ofBytes? (tag.drop stem.length) else none

/-- A text without the mark it begins with, unless nothing else is in it. -/
def unmark : List UInt8 → List UInt8
  | 0x21 :: b :: rest => b :: rest
  | bs => bs

/-- The name of a tag that is not of the language. Marks in front of it do not
count. -/
def customTag? (tag : FullTag) : Option String := do
  let bs ← tag
  if bs.head? = some 0x21 then Text.ofBytes? (unmark (unmark bs)) else none

/-- The value of a scalar under a tag, which has no effect if it is a custom
one. -/
def ofTagged? (tag : List UInt8) (style : ScalarStyle) (s : String) : Option Atom :=
  match languageTag? tag with
  | some "bool" => (bool? s).map .bool
  | some "int" => ((integer? s.toList).filter fitsWord).map .int
  | some "float" => (float? s.toList).map .float
  | some "null" => if isNullWord s then some .null else none
  | _ => if style = .plain ∧ tag.head? = some 0x21 then ofPlain? s else some (.text s)

def ofScalar? (tag : FullTag) (style : ScalarStyle) (s : String) : Option Atom :=
  match tag with
  | some tag => ofTagged? tag style s
  | none => if style = .plain then ofPlain? s else some (.text s)

end Atom

end MetricAgent.Yaml
