/-!
# A place in a YAML text

A cursor is what is left of a text and how far it lies from the start: in
bytes, in lines, and in characters of its line. YAML knows five line breaks; a
carriage return before a line feed is one break with it.
-/

namespace MetricAgent.Yaml

def isBreak (c : Char) : Bool :=
  c == '\n' || c == '\r' || c == '\u0085' || c == '\u2028' || c == '\u2029'

def isBlank (c : Char) : Bool := c == ' ' || c == '\t'

/-- Whether a character may be part of a name: a letter, a digit, a dash or an
underscore. -/
def isWord (c : Char) : Bool := c.isAlphanum || c == '-' || c == '_'

/-- Whether a character may stand in a text at all. -/
def isAllowed (c : Char) : Bool :=
  let n := c.toNat
  n == 9 || n == 10 || n == 13 || (0x20 ≤ n && n ≤ 0x7e) || n == 0x85 ||
    (0xa0 ≤ n && n ≤ 0xd7ff) || (0xe000 ≤ n && n ≤ 0xfffd) || 0x10000 ≤ n

/-- Whether a place is a blank, a break or the end. -/
def isSeparated : Option Char → Bool
  | none => true
  | some c => isBlank c || isBreak c

def byteCount (cs : List Char) : Nat := cs.foldl (fun n c => n + c.utf8Size) 0

structure Cursor where
  rest : List Char
  /-- The number of bytes before it. -/
  index : Nat
  line : Nat
  column : Nat

namespace Cursor

def ofText (s : String) : Cursor := ⟨s.toList, 0, 0, 0⟩

def peek? (c : Cursor) : Option Char := c.rest.head?

def ahead? (c : Cursor) (k : Nat) : Option Char := c.rest[k]?

def sees (c : Cursor) (p : Char → Bool) : Bool := c.peek?.any p

def skip (c : Cursor) (n : Nat) : Cursor :=
  { c with
    rest := c.rest.drop n
    index := c.index + byteCount (c.rest.take n)
    column := c.column + n }

/-- The characters of one line that pass a test, and the place behind them. -/
def span (c : Cursor) (p : Char → Bool) : List Char × Cursor :=
  let cs := c.rest.takeWhile p
  (cs, c.skip cs.length)

def skipWhile (c : Cursor) (p : Char → Bool) : Cursor := (c.span p).2

/-- The start of the next line, `n` characters on. -/
def nextLine (c : Cursor) (n : Nat) : Cursor :=
  ⟨c.rest.drop n, c.index + byteCount (c.rest.take n), c.line + 1, 0⟩

/-- The line break that comes next, as it is read, and the next line. Most
breaks read as a line feed. -/
def break? (c : Cursor) : Option (Char × Cursor) :=
  match c.rest with
  | '\r' :: '\n' :: _ => some ('\n', c.nextLine 2)
  | '\u2028' :: _ => some ('\u2028', c.nextLine 1)
  | '\u2029' :: _ => some ('\u2029', c.nextLine 1)
  | x :: _ => if isBreak x then some ('\n', c.nextLine 1) else none
  | [] => none

def skipBreak (c : Cursor) : Cursor := (c.break?.map Prod.snd).getD c

/-- Moves over blanks and a comment, and then over the line break. Something
else before the end of the line is refused. -/
def endLine? (c : Cursor) : Option Cursor :=
  let c := c.skipWhile isBlank
  let c := if c.sees (· == '#') then c.skipWhile fun x => !isBreak x else c
  match c.peek? with
  | none => some c
  | some x => if isBreak x then some c.skipBreak else none

/-- Whether three dashes, or three points, stand alone at the start of a line. -/
def atMarker (c : Cursor) (mark : Char) : Bool :=
  c.column == 0 && c.rest.take 3 == [mark, mark, mark] && isSeparated (c.ahead? 3)

def atDocumentMarker (c : Cursor) : Bool := c.atMarker '-' || c.atMarker '.'

end Cursor

end MetricAgent.Yaml
