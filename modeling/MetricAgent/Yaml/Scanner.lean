import MetricAgent.Yaml.Scalar
import MetricAgent.Yaml.Tag

/-!
# Scanning

The scanner turns a text into tokens. Outside of brackets it keeps a stack of
indentations, and a token further left closes the block collections it leaves.

A key in front of a colon has no mark of its own. So the scanner remembers,
for the block and for each bracket that is open, the last place where such a
key may have begun, and puts the tokens of the key in there when the colon
comes. A key of this kind lies on one line and within 1024 characters. At the
indentation of the surrounding mapping nothing but a key can stand, and there
it is an error if the colon does not come.

A token is given out as soon as no key can begin with it any more. So where
scanning fails, the tokens that have been given out are those before the first
place where a key may still have begun.
-/

namespace MetricAgent.Yaml

/-- A place where a key may have begun. -/
structure SimpleKey where
  required : Bool
  /-- The number of tokens before it. -/
  position : Nat
  index : Nat
  line : Nat
  column : Nat

structure Scanner where
  cursor : Cursor
  /-- The tokens so far, in reverse, and their number. -/
  tokens : List Token
  count : Nat
  /-- The current indentation, `-1` outside of all collections, and those
  around it. -/
  indent : Int
  outer : List Int
  /-- The possible key of the innermost level. -/
  simpleKey : Option SimpleKey
  /-- Those of the levels around it, one for each open bracket. -/
  outerKeys : List (Option SimpleKey)
  keyAllowed : Bool
  /-- The number of tokens that have been given out. -/
  released : Nat

namespace Scanner

def start (s : String) : Scanner := ⟨Cursor.ofText s, [], 0, -1, [], none, [], true, 0⟩

def inFlow (s : Scanner) : Bool := !s.outerKeys.isEmpty

def emit (s : Scanner) (t : Token) : Scanner :=
  { s with tokens := t :: s.tokens, count := s.count + 1 }

/-- Puts a token in behind the first `position` ones. -/
def insert (s : Scanner) (position : Nat) (t : Token) : Scanner :=
  let back := s.count - position
  { s with tokens := s.tokens.take back ++ t :: s.tokens.drop back, count := s.count + 1 }

def skip (s : Scanner) (n : Nat) : Scanner := { s with cursor := s.cursor.skip n }

/-- Gives the possible key of the innermost level up. -/
def dropKey? (s : Scanner) : Option Scanner :=
  if s.simpleKey.any SimpleKey.required then none else some { s with simpleKey := none }

/-- Remembers that a key may begin here. -/
def saveKey? (s : Scanner) : Option Scanner := do
  if !s.keyAllowed then return s
  else
    let c := s.cursor
    let required := !s.inFlow && s.indent == (c.column : Int)
    let s ← s.dropKey?
    return { s with simpleKey := some ⟨required, s.count, c.index, c.line, c.column⟩ }

/-- Whether a possible key has ended without its colon. -/
def isStale (c : Cursor) (k : SimpleKey) : Bool := k.line < c.line || k.index + 1024 < c.index

/-- Gives up a possible key that has ended. -/
def freshKey? (c : Cursor) : Option SimpleKey → Option (Option SimpleKey)
  | none => some none
  | some k => if isStale c k then (if k.required then none else some none) else some (some k)

def dropStale? (s : Scanner) : Option Scanner := do
  let outerKeys ← s.outerKeys.mapM (freshKey? s.cursor)
  return { s with simpleKey := ← freshKey? s.cursor s.simpleKey, outerKeys := outerKeys }

/-- Opens a block collection at a column, if none is open there. -/
def openBlock (s : Scanner) (column position : Nat) (t : Token) : Scanner :=
  if s.inFlow || (column : Int) ≤ s.indent then s
  else { s.insert position t with indent := column, outer := s.indent :: s.outer }

/-- Closes the block collections right of a column. -/
def closeBlocks (column : Int) : List Int → Scanner → Scanner
  | [], s => s
  | parent :: outer, s =>
    if column < s.indent then
      closeBlocks column outer { s.emit .blockEnd with indent := parent, outer := outer }
    else s

/-- Closes the block collections right of a column, outside of brackets. -/
def unwind (s : Scanner) (column : Int) : Scanner :=
  if s.inFlow then s else closeBlocks column s.outer s

/-- Moves over blanks, comments and line breaks. A tab is a blank only where no
key may begin, or inside of brackets. A byte order mark may begin a line. -/
def toNextToken : Nat → Scanner → Scanner
  | 0, s => s
  | fuel + 1, s =>
    let s := if s.cursor.column = 0 ∧ s.cursor.sees (· == '\ufeff') then s.skip 1 else s
    let tabs := s.inFlow || !s.keyAllowed
    let c := s.cursor.skipWhile fun x => x == ' ' || (tabs && x == '\t')
    let c := if c.sees (· == '#') then c.skipWhile fun x => !isBreak x else c
    match c.break? with
    | some (_, c) =>
      toNextToken fuel { s with cursor := c, keyAllowed := s.keyAllowed || !s.inFlow }
    | none => { s with cursor := c }

/-- What a document marker or a directive ends. -/
def endBlocks? (s : Scanner) : Option Scanner := do
  let s ← (s.unwind (-1)).dropKey?
  return { s with keyAllowed := false }

def documentMarker? (s : Scanner) (t : Token) : Option Scanner := do
  return ((← s.endBlocks?).emit t).skip 3

def openFlow? (s : Scanner) (t : Token) : Option Scanner := do
  let s ← s.saveKey?
  return ({ s with
    simpleKey := none, outerKeys := s.simpleKey :: s.outerKeys, keyAllowed := true }.emit t).skip 1

def closeFlow? (s : Scanner) (t : Token) : Option Scanner := do
  let s ← s.dropKey?
  let s := match s.outerKeys with
    | k :: ks => { s with simpleKey := k, outerKeys := ks }
    | [] => s
  return ({ s with keyAllowed := false }.emit t).skip 1

def flowEntry? (s : Scanner) : Option Scanner := do
  let s ← s.dropKey?
  return ({ s with keyAllowed := true }.emit .flowEntry).skip 1

def blockEntry? (s : Scanner) : Option Scanner := do
  if !s.inFlow && !s.keyAllowed then none
  else
    let s ← (s.openBlock s.cursor.column s.count .blockSequenceStart).dropKey?
    return ({ s with keyAllowed := true }.emit .blockEntry).skip 1

def key? (s : Scanner) : Option Scanner := do
  if !s.inFlow && !s.keyAllowed then none
  else
    let s ← (s.openBlock s.cursor.column s.count .blockMappingStart).dropKey?
    return ({ s with keyAllowed := !s.inFlow }.emit .key).skip 1

/-- The colon before a value. It makes a key of the possible one. -/
def value? (s : Scanner) : Option Scanner :=
  match s.simpleKey with
  | some k =>
    let s := (s.insert k.position .key).openBlock k.column k.position .blockMappingStart
    some (({ s with simpleKey := none, keyAllowed := false }.emit .value).skip 1)
  | none =>
    if !s.inFlow && !s.keyAllowed then none
    else
      let s := s.openBlock s.cursor.column s.count .blockMappingStart
      some (({ s with keyAllowed := !s.inFlow }.emit .value).skip 1)

def keyToken? (s : Scanner) (read : Cursor → Option (Token × Cursor)) : Option Scanner := do
  let s ← s.saveKey?
  let (t, c) ← read s.cursor
  return { s with cursor := c, keyAllowed := false }.emit t

/-- A plain scalar. Behind one that ends with its line a key may begin. -/
def plain? (s : Scanner) : Option Scanner := do
  let s ← s.saveKey?
  let (text, c, broken) ← plainScalar? s.inFlow s.indent s.cursor
  return { s with cursor := c, keyAllowed := broken }.emit (.scalar .plain text)

def block? (s : Scanner) (style : ScalarStyle) : Option Scanner := do
  let s ← s.dropKey?
  let (text, c) ← blockScalar? (style = .literal) s.indent s.cursor
  return { s with cursor := c, keyAllowed := true }.emit (.scalar style text)

def token? (s : Scanner) (x : Char) : Option Scanner :=
  let c := s.cursor
  let apart := isSeparated (c.ahead? 1)
  if c.column = 0 ∧ x = '%' then do
    let s ← s.endBlocks?
    let (t, c) ← directive? s.cursor
    return { s with cursor := c }.emit t
  else if c.atMarker '-' then s.documentMarker? .documentStart
  else if c.atMarker '.' then s.documentMarker? .documentEnd
  else if x = '[' then s.openFlow? .flowSequenceStart
  else if x = '\x7b' then s.openFlow? .flowMappingStart
  else if x = ']' then s.closeFlow? .flowSequenceEnd
  else if x = '\x7d' then s.closeFlow? .flowMappingEnd
  else if x = ',' then s.flowEntry?
  else if x = '-' ∧ apart then s.blockEntry?
  else if x = '?' ∧ (s.inFlow || apart) then s.key?
  else if x = ':' ∧ (s.inFlow || apart) then s.value?
  else if x = '*' then s.keyToken? fun c => (anchorName? c).map fun (n, c) => (.reference n, c)
  else if x = '&' then s.keyToken? fun c => (anchorName? c).map fun (n, c) => (.anchor n, c)
  else if x = '!' then s.keyToken? (tag? s.inFlow)
  else if x = '|' ∧ !s.inFlow then s.block? .literal
  else if x = '>' ∧ !s.inFlow then s.block? .folded
  else if x = '\'' then
    s.keyToken? fun c => (quotedScalar? true c).map fun (t, c) => (.scalar .singleQuoted t, c)
  else if x = '"' then
    s.keyToken? fun c => (quotedScalar? false c).map fun (t, c) => (.scalar .doubleQuoted t, c)
  else if x = '\t' ∨ "#|>%@\x60".toList.contains x then none
  else s.plain?

/-- Gives out the tokens before the first place where a key may have begun. -/
def release (s : Scanner) : Scanner :=
  { s with released := (s.simpleKey :: s.outerKeys).foldl (fun n k => match k with
      | some k => min n k.position
      | none => n) s.count }

/-- What has been given out when scanning fails. -/
def breakOff (s : Scanner) : TokenStream := ⟨s.tokens.reverse.take s.released, false⟩

def approach? (s : Scanner) : Option Scanner := do
  let s ← (toNextToken (s.cursor.rest.length + 1) s).dropStale?
  return s.unwind s.cursor.column

/-- Ends the scan. The end of the text also ends its last line. -/
def finish? (s : Scanner) : Option TokenStream := do
  let s ← (s.unwind (-1)).dropKey?
  let s ← { s with cursor := s.cursor.nextLine 0 }.dropStale?
  return ⟨s.tokens.reverse, true⟩

/-- Scans to the end of the text, one token in each of at most `fuel` steps. -/
def run : Nat → Scanner → TokenStream
  | 0, s => s.breakOff
  | fuel + 1, s =>
    match s.dropStale? with
    | none => s.breakOff
    | some s =>
      let s := s.release
      match s.approach? with
      | none => s.breakOff
      | some t =>
        match t.cursor.peek? with
        | none => t.finish?.getD s.breakOff
        | some x =>
          match t.token? x with
          | none => s.breakOff
          | some t => run fuel t

end Scanner

/-- The tokens of a text. Some characters may not stand in it at all. -/
def TokenStream.ofText (s : String) : TokenStream :=
  if s.toList.all isAllowed then Scanner.run (s.length + 1) (Scanner.start s) else ⟨[], false⟩

end MetricAgent.Yaml
