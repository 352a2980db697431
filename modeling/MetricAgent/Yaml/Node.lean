import MetricAgent.Text.Bytes
import MetricAgent.Yaml.Token

/-!
# Nodes

The tokens of a document form a tree of nodes, in which an alias is a node of
its own that names another one. A node without any text is an empty plain
scalar.

Anchors are numbered as they come. The number of an anchor is the count of the
names that have been used before it, and so an anchor whose name is used again
takes the number that the next new name takes too. An alias stands for the
number that its name has at that place.

Where tokens break off, or belong to no document, reading stops. What has been
read before is kept: collections end there, and a node of which nothing is
known is a broken one.
-/

namespace MetricAgent.Yaml

abbrev FullTag := Option (List UInt8)

inductive Node where
  | scalar (anchor : Option Nat) (tag : FullTag) (style : ScalarStyle) (text : String)
  | sequence (anchor : Option Nat) (tag : FullTag) (items : List Node)
  | mapping (anchor : Option Nat) (tag : FullTag) (entries : List (Node × Node))
  | reference (target : Nat)
  | broken
deriving Repr

namespace Node

def blank : Node := .scalar none none .plain ""

/-- What is left of the tokens, and the numbers of the anchors so far, the
latest first. -/
structure Remainder where
  tokens : List Token
  /-- Whether nothing is missing behind the tokens. -/
  complete : Bool
  anchors : List (String × Nat)

abbrev Reading := StateM Remainder

/-- Stops reading: no tokens are left, and not because the text has ended. -/
def stop : Reading Unit := modify fun r => { r with tokens := [], complete := false }

/-- Whether nothing more can be read, and something is missing. -/
def hasStopped : Reading Bool := do
  let r ← get
  return r.tokens.isEmpty && !r.complete

def peek : Reading (Option Token) := do return (← get).tokens.head?

def advance : Reading Unit := modify fun r => { r with tokens := r.tokens.tail }

def accept (t : Token) : Reading Bool := do
  if (← peek) = some t then
    advance
    return true
  else return false

def expect (t : Token) : Reading Unit := do
  if !(← accept t) then stop

def sees (ts : List Token) : Reading Bool := do
  match ← peek with
  | some t => return ts.contains t
  | none => return false

def placeAnchor (name : String) : Reading Nat := do
  let r ← get
  let n := (r.anchors.map Prod.fst).eraseDups.length
  set { r with anchors := (name, n) :: r.anchors }
  return n

/-- The handles of tags and what they stand for. -/
abbrev Handles := List (String × List UInt8)

def fullTag? (handles : Handles) (handle : String) (suffix : List UInt8) : FullTag :=
  if handle = "" then some suffix else (handles.lookup handle).map fun stem => stem ++ suffix

def anchor? : Reading (Option Nat) := do
  match ← peek with
  | some (.anchor name) =>
    advance
    return some (← placeAnchor name)
  | _ => return none

def tag? (handles : Handles) : Reading FullTag := do
  match ← peek with
  | some (.tag handle suffix) =>
    advance
    let tag := fullTag? handles handle suffix
    if tag.isNone then stop
    return tag
  | _ => return none

def properties (handles : Handles) : Reading (Option Nat × FullTag) := do
  let before ← anchor?
  let tag ← tag? handles
  if before.isSome then return (before, tag)
  else return (← anchor?, tag)

mutual

/-- Reads a node. Block collections are allowed only where `block` says so, and
a block sequence may begin without indentation where `indentless` says so. -/
def read (handles : Handles) (block indentless : Bool) : Nat → Reading Node
  | 0 => do
    stop
    return broken
  | fuel + 1 => do
    match ← peek with
    | some (.reference name) =>
      advance
      match (← get).anchors.lookup name with
      | some target => return .reference target
      | none =>
        stop
        return broken
    | _ =>
      let (anchor, tag) ← properties handles
      match ← peek with
      | some (.scalar style text) =>
        advance
        return .scalar anchor tag style text
      | some .flowSequenceStart =>
        advance
        return .sequence anchor tag (← flowItems handles true fuel)
      | some .flowMappingStart =>
        advance
        return .mapping anchor tag (← flowEntries handles true fuel)
      | other =>
        if indentless ∧ other = some .blockEntry then
          return .sequence anchor tag (← indentlessItems handles fuel)
        else if block ∧ other = some .blockSequenceStart then
          advance
          return .sequence anchor tag (← blockItems handles fuel)
        else if block ∧ other = some .blockMappingStart then
          advance
          return .mapping anchor tag (← blockEntries handles fuel)
        else if (anchor.isSome ∨ tag.isSome) ∧ !(← hasStopped) then
          return .scalar anchor tag .plain ""
        else
          stop
          return broken

/-- Reads a node, or takes it for empty where one of some tokens comes next. -/
def readUnless (handles : Handles) (block indentless : Bool) (ends : List Token) :
    Nat → Reading Node
  | 0 => do
    stop
    return broken
  | fuel + 1 => do
    if ← sees ends then return blank else read handles block indentless fuel

def blockItems (handles : Handles) : Nat → Reading (List Node)
  | 0 => do
    stop
    return []
  | fuel + 1 => do
    if ← accept .blockEntry then
      let item ← readUnless handles true false [.blockEntry, .blockEnd] fuel
      return item :: (← blockItems handles fuel)
    else
      expect .blockEnd
      return []

/-- The items of a block sequence at the indentation of its parent. -/
def indentlessItems (handles : Handles) : Nat → Reading (List Node)
  | 0 => do
    stop
    return []
  | fuel + 1 => do
    if ← accept .blockEntry then
      let item ← readUnless handles true false [.blockEntry, .key, .value, .blockEnd] fuel
      return item :: (← indentlessItems handles fuel)
    else return []

def blockEntries (handles : Handles) : Nat → Reading (List (Node × Node))
  | 0 => do
    stop
    return []
  | fuel + 1 => do
    if ← accept .key then
      let ends := [.key, .value, .blockEnd]
      let key ← readUnless handles true true ends fuel
      let value ← valueOf handles true ends fuel
      return (key, value) :: (← blockEntries handles fuel)
    else
      expect .blockEnd
      return []

/-- The value of a key, which is empty if it is not there. -/
def valueOf (handles : Handles) (block : Bool) (ends : List Token) : Nat → Reading Node
  | 0 => do
    stop
    return broken
  | fuel + 1 => do
    if ← accept .value then readUnless handles block block ends fuel
    else if ← hasStopped then return broken
    else return blank

/-- The items of a sequence in brackets. A key without braces makes a mapping
with that one entry. -/
def flowItems (handles : Handles) (first : Bool) : Nat → Reading (List Node)
  | 0 => do
    stop
    return []
  | fuel + 1 => do
    if ← accept .flowSequenceEnd then return []
    else
      if !first then expect .flowEntry
      if ← accept .flowSequenceEnd then return []
      else
        let item ← if ← accept .key then singlePair handles fuel else read handles false false fuel
        return item :: (← flowItems handles false fuel)

/-- A mapping with one entry and without braces. -/
def singlePair (handles : Handles) : Nat → Reading Node
  | 0 => do
    stop
    return broken
  | fuel + 1 => do
    let key ←
      if ← sees [.value, .flowEntry, .flowSequenceEnd] then
        advance
        pure blank
      else read handles false false fuel
    let value ← valueOf handles false [.flowEntry, .flowSequenceEnd] fuel
    return .mapping none none [(key, value)]

def flowEntries (handles : Handles) (first : Bool) : Nat → Reading (List (Node × Node))
  | 0 => do
    stop
    return []
  | fuel + 1 => do
    if ← accept .flowMappingEnd then return []
    else
      if !first then expect .flowEntry
      if ← accept .flowMappingEnd then return []
      else if ← accept .key then
        let key ← readUnless handles false false [.value, .flowEntry, .flowMappingEnd] fuel
        let value ← valueOf handles false [.flowEntry, .flowMappingEnd] fuel
        return (key, value) :: (← flowEntries handles false fuel)
      else
        let key ← read handles false false fuel
        return (key, blank) :: (← flowEntries handles false fuel)

end

structure Directives where
  version : Bool
  handles : Handles

/-- Adds a handle, which must not be there. -/
def Directives.declare? (d : Directives) (handle : String) (stem : List UInt8) :
    Option Directives :=
  if (d.handles.lookup handle).isSome then none
  else some { d with handles := (handle, stem) :: d.handles }

def directives? (d : Directives) : List Token → Option (Directives × List Token)
  | .versionDirective major minor :: rest =>
    if d.version ∨ major ≠ 1 ∨ (minor ≠ 1 ∧ minor ≠ 2) then none
    else directives? { d with version := true } rest
  | .tagDirective handle stem :: rest => (d.declare? handle stem).bind (directives? · rest)
  | rest => some (d, rest)

/-- The handles that need no directive, as far as none is there for them. -/
def Directives.complete (d : Directives) : Handles :=
  d.handles ++ [("!", Text.bytes "!"), ("!!", Text.bytes "tag:yaml.org,2002:")]

/-- The start of a document: the handles of its tags, whether it is marked, and
the tokens behind its start. -/
def documentStart? (ts : List Token) : Option (Handles × Bool × List Token) := do
  let (d, rest) ← directives? ⟨false, []⟩ ts
  match rest with
  | .documentStart :: rest => return (d.complete, true, rest)
  | rest => if d.version ∨ !d.handles.isEmpty then none else return (d.complete, false, rest)

/-- Whether nothing stands between the start of a marked document and a token. -/
def endsDocument : Option Token → Bool
  | none | some .documentStart | some .documentEnd => true
  | some (.versionDirective ..) | some (.tagDirective ..) => true
  | _ => false

/-- The only document among tokens, as far as it can be read, and whether that
is all of it and nothing comes behind it. Without tokens it is empty. -/
def ofTokens (ts : TokenStream) : Node × Bool :=
  if ts.tokens.isEmpty ∧ ts.complete then (blank, true)
  else match documentStart? ts.tokens with
    | none => (broken, false)
    | some (handles, marked, rest) =>
      let start : Remainder := ⟨rest, ts.complete, []⟩
      let (node, left) :=
        if marked ∧ endsDocument rest.head? ∧ (ts.complete ∨ !rest.isEmpty) then (blank, start)
        else (read handles true false (5 * rest.length + 5)).run start
      (node, left.complete && left.tokens.all (· = .documentEnd))

end Node

end MetricAgent.Yaml
