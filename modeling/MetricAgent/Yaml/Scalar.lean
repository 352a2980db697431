import MetricAgent.Text.Digits
import MetricAgent.Yaml.Cursor
import MetricAgent.Yaml.Token

/-!
# Reading scalars

Between two words of a plain or quoted scalar stands a gap. A gap of blanks is
kept as it is; one with a line break is folded: a single break becomes a
space, and of several the first one is lost. In a block scalar the lines are
told by their indentation, and the last break and the empty lines behind it
are kept or not as the header says.

Each reader gives the text and the place behind it, and nothing where the
scalar is malformed. The loops count down the characters that are left.
-/

namespace MetricAgent.Yaml

/-- What stands between two words. -/
inductive Gap where
  | blanks (cs : List Char)
  /-- The first line break, which an escaped one is not, and the others in
  reverse. -/
  | breaks (first : Option Char) (others : List Char)

namespace Gap

def text : Gap → List Char
  | .blanks cs => cs
  | .breaks (some c) others =>
    if c = '\n' then (if others.isEmpty then [' '] else others.reverse) else c :: others.reverse
  | .breaks none others => others.reverse

def hasBreak : Gap → Bool
  | .blanks _ => false
  | .breaks .. => true

/-- Reads the rest of a gap. Behind a break, a tab left of the column `margin`
is refused. -/
def read (margin : Nat) : Nat → Gap → Cursor → Option (Gap × Cursor)
  | 0, g, c => some (g, c)
  | fuel + 1, g, c =>
    if c.sees isBlank then
      match g with
      | .blanks cs => read margin fuel (.blanks (cs ++ c.peek?.toList)) (c.skip 1)
      | .breaks .. =>
        if c.column < margin && c.sees (· == '\t') then none else read margin fuel g (c.skip 1)
    else
      match c.break?, g with
      | none, _ => some (g, c)
      | some (x, c), .blanks _ => read margin fuel (.breaks (some x) []) c
      | some (x, c), .breaks first others => read margin fuel (.breaks first (x :: others)) c

end Gap

/-- Whether a character ends a plain scalar inside of brackets. -/
def isFlowEnd (c : Char) : Bool :=
  c == ',' || c == '[' || c == ']' || c == '\x7b' || c == '\x7d'

/-- The length of the plain word at the front of a text. A colon ends it before
a blank; inside of brackets some characters end it, and are refused behind a
colon. -/
def plainWordLength (flow : Bool) : List Char → Option Nat
  | [] => some 0
  | c :: rest =>
    if isSeparated (some c) then some 0
    else if flow && c == ':' && rest.head?.any fun d => isFlowEnd d || d == '?' then none
    else if c == ':' && isSeparated rest.head? then some 0
    else if flow && isFlowEnd c then some 0
    else (plainWordLength flow rest).map (· + 1)

/-- Reads a plain scalar word by word. Gives the text, the place behind it, and
whether a line break lies between. -/
def plainLoop (flow : Bool) (margin : Nat) :
    Nat → List Char → Gap → Cursor → Option (List Char × Cursor × Bool)
  | 0, text, gap, c => some (text, c, gap.hasBreak)
  | fuel + 1, text, gap, c => do
    if c.atDocumentMarker || c.sees (· == '#') then return (text, c, gap.hasBreak)
    let n ← plainWordLength flow c.rest
    let (text, gap) :=
      if n = 0 then (text, gap) else (text ++ gap.text ++ c.rest.take n, Gap.blanks [])
    let c := c.skip n
    if !c.sees fun x => isSeparated (some x) then return (text, c, gap.hasBreak)
    let (gap, c) ← Gap.read margin c.rest.length (.blanks []) c
    if !flow && c.column < margin then return (text, c, gap.hasBreak)
    plainLoop flow margin fuel text gap c

/-- Reads a plain scalar whose further lines lie right of an indentation. -/
def plainScalar? (flow : Bool) (indent : Int) (c : Cursor) : Option (String × Cursor × Bool) := do
  let (text, c, broken) ← plainLoop flow (indent + 1).toNat c.rest.length [] (.blanks []) c
  return (String.ofList text, c, broken)

def escapes : List (Char × Char) := [
  ('0', '\x00'), ('a', '\x07'), ('b', '\x08'), ('t', '\t'), ('\t', '\t'), ('n', '\n'),
  ('v', '\x0b'), ('f', '\x0c'), ('r', '\r'), ('e', '\x1b'), (' ', ' '), ('"', '"'), ('/', '/'),
  ('\\', '\\'), ('N', '\u0085'), ('_', '\u00a0'), ('L', '\u2028'), ('P', '\u2029')]

/-- How many hexadecimal digits follow a letter behind a backslash. -/
def escapeDigits? (c : Char) : Option Nat :=
  if c = 'x' then some 2 else if c = 'u' then some 4 else if c = 'U' then some 8 else none

/-- The character that an escape stands for, and the length of what stands
behind the backslash. -/
def escape? (cs : List Char) : Option (Char × Nat) := do
  let c ← cs.head?
  match escapes.lookup c with
  | some x => return (x, 1)
  | none =>
    let n ← escapeDigits? c
    let digits := (cs.drop 1).take n
    let value ← Text.ofDigits? 16 digits
    if digits.length = n ∧ value.isValidChar then return (Char.ofNat value, n + 1) else none

inductive StretchEnd where
  | quote
  | separated
  /-- A break behind a backslash. -/
  | escapedBreak
deriving DecidableEq

/-- Reads quoted characters up to the next blank or quote. The text is kept in
reverse. -/
def stretch? (single : Bool) :
    Nat → List Char → Cursor → Option (List Char × Cursor × StretchEnd)
  | 0, text, c => some (text, c, .separated)
  | fuel + 1, text, c =>
    match c.rest with
    | [] => some (text, c, .separated)
    | x :: rest =>
      if isSeparated (some x) then some (text, c, .separated)
      else if single then
        if x = '\'' then
          if rest.head? = some '\'' then stretch? single fuel ('\'' :: text) (c.skip 2)
          else some (text, c, .quote)
        else stretch? single fuel (x :: text) (c.skip 1)
      else if x = '"' then some (text, c, .quote)
      else if x = '\\' then
        if rest.head?.any isBreak then some (text, (c.skip 1).skipBreak, .escapedBreak)
        else
          match escape? rest with
          | some (y, n) => stretch? single fuel (y :: text) (c.skip (n + 1))
          | none => none
      else stretch? single fuel (x :: text) (c.skip 1)

/-- Reads a quoted scalar behind its first quote, stretch by stretch. The text is
kept in reverse. -/
def quotedLoop (single : Bool) : Nat → List Char → Cursor → Option (List Char × Cursor)
  | 0, _, _ => none
  | fuel + 1, text, c => do
    if c.atDocumentMarker || c.rest.isEmpty then none
    else
      let (text, c, ending) ← stretch? single c.rest.length text c
      if ending = .quote then return (text, c.skip 1)
      else if c.sees (· == if single then '\'' else '"') then return (text, c.skip 1)
      else
        let start := if ending = .escapedBreak then Gap.breaks none [] else .blanks []
        let (gap, c) ← Gap.read 0 c.rest.length start c
        quotedLoop single fuel (gap.text.reverse ++ text) c

def quotedScalar? (single : Bool) (c : Cursor) : Option (String × Cursor) := do
  let (text, c) ← quotedLoop single c.rest.length [] (c.skip 1)
  return (String.ofList text.reverse, c)

/-- What becomes of the breaks behind a block scalar. -/
inductive Chomping where
  | strip
  | clip
  | keep
deriving DecidableEq

def chomping? : Option Char → Option Chomping
  | some '+' => some .keep
  | some '-' => some .strip
  | _ => none

/-- The indentation indicator that a character is, none if it is no digit. -/
def indentation? (c : Option Char) : Option Nat :=
  match c with
  | some x => if x.isDigit then some (x.toNat - '0'.toNat) else none
  | none => none

/-- Reads the header of a block scalar: its chomping and, if it is given, how
far it is indented. -/
def blockHeader? (c : Cursor) : Option (Chomping × Option Nat × Cursor) := do
  let (chomping, increment, c) :=
    match chomping? c.peek? with
    | some k =>
      let c := c.skip 1
      match indentation? c.peek? with
      | some n => (k, some n, c.skip 1)
      | none => (k, none, c)
    | none =>
      match indentation? c.peek? with
      | some n =>
        let c := c.skip 1
        match chomping? c.peek? with
        | some k => (k, some n, c.skip 1)
        | none => (.clip, some n, c)
      | none => (.clip, none, c)
  if increment = some 0 then none
  else return (chomping, increment, ← c.endLine?)

/-- Reads empty lines and the indentation before the next line of a block
scalar. The indentation is zero as long as it is not known. Gives the breaks
in reverse and the widest indentation seen. -/
def blockBreaks? (indent : Nat) :
    Nat → List Char → Nat → Cursor → Option (List Char × Nat × Cursor)
  | 0, breaks, widest, c => some (breaks, widest, c)
  | fuel + 1, breaks, widest, c =>
    let spaces := (c.rest.takeWhile (· == ' ')).length
    let c := c.skip (if indent = 0 then spaces else min spaces (indent - c.column))
    let widest := max widest c.column
    if (indent = 0 || c.column < indent) && c.sees (· == '\t') then none
    else
      match c.break? with
      | some (x, c) => blockBreaks? indent fuel (x :: breaks) widest c
      | none => some (breaks, widest, c)

/-- A block scalar under construction: its text, the break behind the last line
and the empty lines behind that, both in reverse, and whether the last line
began with a blank. -/
structure BlockText where
  text : List Char
  lineBreak : List Char
  emptyLines : List Char
  blankStart : Bool

def blockLines? (literal : Bool) (indent : Nat) :
    Nat → BlockText → Cursor → Option (BlockText × Cursor)
  | 0, b, c => some (b, c)
  | fuel + 1, b, c =>
    if c.column = indent ∧ !c.rest.isEmpty then do
      let blank := c.sees isBlank
      let joined :=
        if !literal && b.lineBreak.head? == some '\n' && !b.blankStart && !blank then
          (if b.emptyLines.isEmpty then [' '] else [])
        else b.lineBreak
      let (line, c) := c.span fun x => !isBreak x
      let (lineBreak, c) := match c.break? with
        | some (x, c) => ([x], c)
        | none => ([], c)
      let (emptyLines, _, c) ← blockBreaks? indent c.rest.length [] 0 c
      blockLines? literal indent fuel
        ⟨b.text ++ joined ++ b.emptyLines.reverse ++ line, lineBreak, emptyLines, blank⟩ c
    else some (b, c)

/-- Reads a block scalar inside of an indentation, which is `-1` outside of all
collections. -/
def blockScalar? (literal : Bool) (parent : Int) (c : Cursor) : Option (String × Cursor) := do
  let (chomping, increment, c) ← blockHeader? (c.skip 1)
  let given := (increment.map fun n => n + parent.toNat).getD 0
  let (emptyLines, widest, c) ← blockBreaks? given c.rest.length [] 0 c
  let indent := if given = 0 then max (max widest (parent + 1).toNat) 1 else given
  let (b, c) ← blockLines? literal indent (c.rest.length + 1) ⟨[], [], emptyLines, false⟩ c
  let text := match chomping with
    | .strip => b.text
    | .clip => b.text ++ b.lineBreak
    | .keep => b.text ++ b.lineBreak ++ b.emptyLines.reverse
  return (String.ofList text, c)

end MetricAgent.Yaml
