import MetricAgent.Text.Digits
import MetricAgent.Yaml.Cursor
import MetricAgent.Yaml.Token

/-!
# Reading tags, anchors and directives

These are the tokens that begin with an indicator and are named by words. Tags
may hold bytes as escapes, which have to follow each other like the bytes of
characters; what stands behind a zero byte does not count. Each reader begins
at the indicator and gives the token and the place behind it.
-/

namespace MetricAgent.Yaml

/-- Whether a character may stand behind the name of an anchor or an alias. -/
def endsName (c : Option Char) : Bool :=
  isSeparated c || c.any fun x => "?:,]\x7d%@\x60".toList.contains x

def anchorName? (c : Cursor) : Option (String × Cursor) :=
  let (name, c) := (c.skip 1).span isWord
  if name.isEmpty || !endsName c.peek? then none else some (String.ofList name, c)

/-- Whether a character may stand in a tag. A verbatim tag may hold three more. -/
def isTagChar (verbatim : Bool) (c : Char) : Bool :=
  isWord c || ";/?:@&=+$.%!~*'()".toList.contains c || (verbatim && ",[]".toList.contains c)

def encodedWidth (b : Nat) : Nat :=
  if b < 0x80 then 1
  else if b < 0xc0 then 0
  else if b < 0xe0 then 2
  else if b < 0xf0 then 3
  else if b < 0xf8 then 4
  else 0

/-- Reads the characters of a tag, where `owed` bytes of a character must still
come as escapes. Gives the bytes and the number of characters read. -/
def tagBytes? (verbatim : Bool) : Nat → List Char → Option (List UInt8 × Nat)
  | owed, '%' :: a :: b :: rest => do
    let octet := (← Text.hexDigit? a) * 16 + (← Text.hexDigit? b)
    let owed ←
      if owed = 0 then
        (if encodedWidth octet = 0 then none else some (encodedWidth octet - 1))
      else if 0x80 ≤ octet ∧ octet < 0xc0 then some (owed - 1)
      else none
    let (bytes, n) ← tagBytes? verbatim owed rest
    return (UInt8.ofNat octet :: bytes, n + 3)
  | owed, c :: rest =>
    if owed ≠ 0 ∨ c = '%' then none
    else if isTagChar verbatim c then do
      let (bytes, n) ← tagBytes? verbatim 0 rest
      return (String.utf8EncodeChar c ++ bytes, n + 1)
    else some ([], 0)
  | owed, [] => if owed = 0 then some ([], 0) else none

def beforeZero (bytes : List UInt8) : List UInt8 := bytes.takeWhile (· ≠ 0)

/-- Reads the characters of a tag, which may not be missing. -/
def tagText? (verbatim : Bool) (c : Cursor) : Option (List UInt8 × Cursor) := do
  let (bytes, n) ← tagBytes? verbatim 0 c.rest
  if n = 0 then none else return (beforeZero bytes, c.skip n)

/-- The longest handle at a place: an exclamation mark, word characters, and a
second mark if it comes. -/
def handle (c : Cursor) : List Char × Cursor :=
  let (word, d) := (c.skip 1).span isWord
  if d.sees (· == '!') then ('!' :: word ++ ['!'], d.skip 1) else ('!' :: word, d)

/-- Reads a tag without looking at what follows. -/
def tagToken? (c : Cursor) : Option (Token × Cursor) := do
  if c.ahead? 1 = some '<' then
    let (bytes, c) ← tagText? true (c.skip 2)
    if c.sees (· == '>') then return (.tag "" bytes, c.skip 1) else none
  else
    let (mark, d) := handle c
    if 1 < mark.length ∧ mark.getLast? = some '!' then
      let (bytes, d) ← tagText? false d
      return (.tag (String.ofList mark) bytes, d)
    else
      let (bytes, n) ← tagBytes? false 0 d.rest
      let suffix := mark.tail.flatMap String.utf8EncodeChar ++ beforeZero bytes
      if suffix.isEmpty then return (.tag "" [0x21], d.skip n)
      else return (.tag "!" suffix, d.skip n)

/-- Reads a tag. A blank has to follow, or a comma inside of brackets. -/
def tag? (flow : Bool) (c : Cursor) : Option (Token × Cursor) := do
  let (t, c) ← tagToken? c
  if isSeparated c.peek? || (flow && c.sees (· == ',')) then return (t, c) else none

/-- Reads a number of a version, of at most nine digits. -/
def versionNumber? (c : Cursor) : Option (Nat × Cursor) :=
  let (digits, c) := c.span Char.isDigit
  if digits.isEmpty ∨ 9 < digits.length then none
  else some (digits.foldl (fun n d => n * 10 + (d.toNat - '0'.toNat)) 0, c)

def versionDirective? (c : Cursor) : Option (Token × Cursor) := do
  let (major, c) ← versionNumber? (c.skipWhile isBlank)
  if c.sees (· == '.') then
    let (minor, c) ← versionNumber? (c.skip 1)
    return (.versionDirective major minor, c)
  else none

def tagDirective? (c : Cursor) : Option (Token × Cursor) := do
  let c := c.skipWhile isBlank
  if !c.sees (· == '!') then none
  else
    let (mark, c) := handle c
    if mark.length ≠ 1 ∧ mark.getLast? ≠ some '!' then none
    else if !c.sees isBlank then none
    else
      let (bytes, c) ← tagText? true (c.skipWhile isBlank)
      if isSeparated c.peek? then return (.tagDirective (String.ofList mark) bytes, c) else none

def directive? (c : Cursor) : Option (Token × Cursor) := do
  let (name, c) := (c.skip 1).span isWord
  if !isSeparated c.peek? then none
  else
    let (t, c) ← match String.ofList name with
      | "YAML" => versionDirective? c
      | "TAG" => tagDirective? c
      | _ => none
    return (t, ← c.endLine?)

end MetricAgent.Yaml
