import MetricAgent.Number.Binary64
import MetricAgent.Text.Digits

/-!
# Reading JSON scalars

`scalar?` reads a text that holds one string, number or literal and nothing
else but white space. A number without fraction and exponent is an integer as
long as it fits into 64 bits. Any other number is read the way fast readers
do: the leading digits that fit into 64 bits make a significand, which is
rounded and then multiplied or divided by a rounded power of ten. That takes
two roundings where one would do, so the last bit can differ from the nearest
number. A number past the range is no number.
-/

namespace MetricAgent.Json

inductive Scalar where
  | null
  | bool (b : Bool)
  /-- An integer from zero up, below `2 ^ 64`. -/
  | natural (n : Nat)
  /-- An integer below zero, from `-2 ^ 63` up. -/
  | negative (n : Int)
  | float (x : Binary64)
  | text (s : String)
deriving DecidableEq, Repr

def hex4? : List Char → Option (Nat × List Char)
  | a :: b :: c :: d :: rest => (Text.ofDigits? 16 [a, b, c, d]).map fun n => (n, rest)
  | _ => none

def shortEscape? (c : Char) : Option Char :=
  if c = '"' ∨ c = '\\' ∨ c = '/' then some c
  else if c = 'b' then some (Char.ofNat 8)
  else if c = 'f' then some (Char.ofNat 12)
  else if c = 'n' then some '\n'
  else if c = 'r' then some '\r'
  else if c = 't' then some '\t'
  else none

/-- The character of an escape with the letter `u`, which takes a second such
escape if the first one is the high half of a pair, and what follows it. -/
def unicodeEscape? (cs : List Char) : Option (Char × List Char) := do
  let (hi, rest) ← hex4? cs
  if hi < 0xD800 ∨ 0xDFFF < hi then return (Char.ofNat hi, rest)
  else if 0xDC00 ≤ hi then none
  else match rest with
    | '\\' :: 'u' :: rest => do
      let (lo, rest) ← hex4? rest
      if 0xDC00 ≤ lo ∧ lo ≤ 0xDFFF then
        return (Char.ofNat (0x10000 + (hi - 0xD800) * 0x400 + (lo - 0xDC00)), rest)
      else none
    | _ => none

/-- The characters of a string up to its closing quote, and what follows. The
count is of the characters that may still be read. -/
def stringBody? : Nat → List Char → Option (List Char × List Char)
  | 0, _ => none
  | _, [] => none
  | fuel + 1, c :: rest =>
    if c = '"' then some ([], rest)
    else if c = '\\' then
      match rest with
      | [] => none
      | 'u' :: rest => do
        let (x, rest) ← unicodeEscape? rest
        let (xs, rest) ← stringBody? fuel rest
        return (x :: xs, rest)
      | e :: rest => do
        let x ← shortEscape? e
        let (xs, rest) ← stringBody? fuel rest
        return (x :: xs, rest)
    else if c.toNat < 32 then none
    else do
      let (xs, rest) ← stringBody? fuel rest
      return (c :: xs, rest)

/-- A significand below `2 ^ 64`, its power of ten, and whether digits have
already been left out because they did not fit. -/
structure Significand where
  value : Nat
  scale : Int
  full : Bool

/-- Takes in a digit before the point. One that does not fit only counts. -/
def Significand.wholeDigit (s : Significand) (d : Nat) : Significand :=
  if s.full then { s with scale := s.scale + 1 }
  else if s.value * 10 + d < UInt64.size then { s with value := s.value * 10 + d }
  else { s with scale := s.scale + 1, full := true }

/-- Takes in a digit after the point. The first one that does not fit ends the
significand. -/
def Significand.placeDigit (s : Significand) (d : Nat) : Significand :=
  if s.full then s
  else if s.value * 10 + d < UInt64.size then ⟨s.value * 10 + d, s.scale - 1, false⟩
  else { s with full := true }

/-- The rounded power of ten, for exponents up to 308. -/
def powerOfTen (k : Nat) : Binary64 := Binary64.ofDecimal false 1 k

/-- A rounded significand times a power of ten, `none` past the range. An
exponent below the table of powers is used up 308 at a time, until nothing is
left of the number; that takes at most three steps from 64 bits. -/
def scaleByTen : Nat → Binary64 → Int → Option Binary64
  | 0, x, _ => some x
  | fuel + 1, x, k =>
    if k.natAbs ≤ 308 then
      if 0 ≤ k then
        let y := x.mul (powerOfTen k.natAbs)
        if y.isFinite then some y else none
      else some (x.div (powerOfTen k.natAbs))
    else if x.isZero then some x
    else if 0 ≤ k then none
    else scaleByTen fuel (x.div (powerOfTen 308)) (k + 308)

def Significand.number? (s : Significand) : Option Binary64 :=
  scaleByTen 4 (Binary64.ofInt s.value) s.scale

def digits (cs : List Char) : List Nat × List Char :=
  ((cs.takeWhile Char.isDigit).map (fun c => c.toNat - '0'.toNat), cs.dropWhile Char.isDigit)

def exponentSign : List Char → Bool × List Char
  | '+' :: rest => (false, rest)
  | '-' :: rest => (true, rest)
  | rest => (false, rest)

def signed (minus : Bool) (x : Binary64) : Scalar := .float (if minus then x.neg else x)

/-- The value of a number without fraction and exponent. -/
def integer? (minus : Bool) (s : Significand) : Option Scalar :=
  if s.full then s.number?.map (signed minus)
  else if !minus then some (.natural s.value)
  else if s.value = 0 ∨ 0x8000000000000000 < s.value then some (signed true (Binary64.ofInt s.value))
  else some (.negative (-s.value))

/-- The value of a significand with an exponent, and the rest of the text. An
exponent of more than 31 bits leaves a zero, or no number. -/
def withExponent? (minus : Bool) (s : Significand) (cs : List Char) :
    Option (Scalar × List Char) := do
  let (down, cs) := exponentSign cs
  let (ds, rest) := digits cs
  if ds.isEmpty then none
  else
    let e : Nat := ds.foldl (fun n d => min (n * 10 + d) 0x80000000) 0
    if 0x80000000 ≤ e then
      if s.value ≠ 0 ∧ !down then none else some (signed minus Binary64.zero, rest)
    else
      let scale := if down then s.scale - e else s.scale + e
      let x ← Significand.number? { s with scale := scale }
      return (signed minus x, rest)

/-- Ends a number all of whose digits have been read: with an exponent, or as
the plain number it is. -/
def numberEnd? (minus : Bool) (s : Significand) (plain : Option Scalar) :
    List Char → Option (Scalar × List Char)
  | [] => plain.map fun v => (v, [])
  | c :: tail =>
    if c = 'e' ∨ c = 'E' then withExponent? minus s tail else plain.map fun v => (v, c :: tail)

/-- The significand with the digits behind the point. -/
def withPlaces (s : Significand) (places : List Nat) : Significand :=
  places.foldl Significand.placeDigit { s with full := false }

def afterWhole? (minus : Bool) (s : Significand) : List Char → Option (Scalar × List Char)
  | '.' :: rest =>
    let (places, rest) := digits rest
    if places.isEmpty then none
    else
      let s := withPlaces s places
      numberEnd? minus s (s.number?.map (signed minus)) rest
  | rest => numberEnd? minus s (integer? minus s) rest

def unsignedNumber? (minus : Bool) (cs : List Char) : Option (Scalar × List Char) :=
  let (whole, rest) := digits cs
  if whole.isEmpty ∨ (whole.head? = some 0 ∧ whole.length ≠ 1) then none
  else afterWhole? minus (whole.foldl Significand.wholeDigit ⟨0, 0, false⟩) rest

def number? : List Char → Option (Scalar × List Char)
  | '-' :: rest => unsignedNumber? true rest
  | cs => unsignedNumber? false cs

def isSpace (c : Char) : Bool := c == ' ' || c == '\t' || c == '\n' || c == '\r'

/-- The rest of a text behind a word it starts with. -/
def afterWord? (word cs : List Char) : Option (List Char) :=
  if word.isPrefixOf cs then some (cs.drop word.length) else none

def scalarAt? (cs : List Char) : Option (Scalar × List Char) :=
  match cs with
  | '"' :: rest => (stringBody? rest.length rest).map fun (xs, rest) => (.text (String.ofList xs), rest)
  | 'n' :: _ => (afterWord? "null".toList cs).map fun rest => (.null, rest)
  | 't' :: _ => (afterWord? "true".toList cs).map fun rest => (.bool true, rest)
  | 'f' :: _ => (afterWord? "false".toList cs).map fun rest => (.bool false, rest)
  | _ => number? cs

def scalar? (s : String) : Option Scalar := do
  let (v, rest) ← scalarAt? (s.toList.dropWhile isSpace)
  if rest.all isSpace then some v else none

end MetricAgent.Json
