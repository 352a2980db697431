import MetricAgent.Glob.Piece

/-!
# Reading patterns

A pattern is read character by character. A class in brackets and the groups
in braces that are still open are part of the state of the reader. The meaning
of two stars depends on what stands around them: they only know of separators
when they are a component of their own.
-/

namespace MetricAgent.Glob

inductive Flaw where
  | unclosedClass
  | emptyRange (lo hi : Char)
  | unclosedGroup
  | unopenedGroup
  | danglingEscape
deriving DecidableEq, Repr

def Flaw.message : Flaw → String
  | .unclosedClass => "unclosed character class; missing ']'"
  | .emptyRange lo hi =>
    "invalid range; '" ++ String.singleton lo ++ "' > '" ++ String.singleton hi ++ "'"
  | .unclosedGroup => "unclosed alternate group; missing '\x7d' (maybe escape '\x7b' with '[\x7b]'?)"
  | .unopenedGroup => "unopened alternate group; missing '\x7b' (maybe escape '\x7d' with '[\x7d]'?)"
  | .danglingEscape => "dangling '\\'"

/-- A group that is still open: the pieces before it and its branches so far,
both in reverse. -/
structure OpenGroup where
  before : List Piece
  branches : List (List Piece)

/-- What has been read: the open groups, innermost first, and the pieces of the
current branch in reverse. -/
structure Progress where
  groups : List OpenGroup
  branch : List Piece

namespace Progress

def push (s : Progress) (p : Piece) : Progress := { s with branch := p :: s.branch }

def openGroup (s : Progress) : Progress := ⟨⟨s.branch, []⟩ :: s.groups, []⟩

/-- Begins the next branch; outside of groups a comma is a character. -/
def nextBranch (s : Progress) : Progress :=
  match s.groups with
  | [] => s.push (.literal ',')
  | g :: gs => ⟨{ g with branches := s.branch.reverse :: g.branches } :: gs, []⟩

def closeGroup (s : Progress) : Except Flaw Progress :=
  match s.groups with
  | [] => .error .unopenedGroup
  | g :: gs => .ok ⟨gs, .choice (s.branch.reverse :: g.branches).reverse :: g.before⟩

/-- Two stars that know nothing of separators. -/
def plainStars (s : Progress) : Progress := (s.push .run).push .run

/-- Two stars behind a separator take its place, unless what stands there takes
any components already. -/
def replaceSeparator (s : Progress) (p : Piece) : Progress :=
  match s.branch with
  | .leading :: _ => s
  | .trailing :: _ => s
  | _ :: rest => { s with branch := p :: rest }
  | [] => s

/-- Whether two stars after `prev` may be a component. -/
def startsComponent (s : Progress) (prev : Option Char) : Bool :=
  prev == some '/' || (!s.groups.isEmpty && (prev == some ',' || prev == some '\x7b'))

/-- Takes in two stars between the characters `prev` and `next`, and says
whether they use the next one up. -/
def doubleStar (s : Progress) (prev next : Option Char) : Progress × Bool :=
  if s.branch.isEmpty then
    match next with
    | none => (s.push .leading, false)
    | some '/' => (s.push .leading, true)
    | some _ => (s.plainStars, false)
  else if !s.startsComponent prev then (s.plainStars, false)
  else
    match next with
    | none => (s.replaceSeparator .trailing, false)
    | some '/' => (s.replaceSeparator .inner, true)
    | some c =>
      if !s.groups.isEmpty && (c == ',' || c == '\x7d') then (s.replaceSeparator .trailing, false)
      else (s.plainStars, false)

end Progress

/-- A class that is still open: its ranges in reverse, whether a character has
been read in it, and whether the last one was a dash that may make a range. -/
structure OpenClass where
  negated : Bool
  begun : Bool
  dashed : Bool
  ranges : List (Char × Char)

namespace OpenClass

/-- Takes in a character, which ends a range behind a dash. -/
def take (k : OpenClass) (c : Char) : Except Flaw OpenClass :=
  match k.dashed, k.ranges with
  | true, (lo, _) :: rest =>
    if c < lo then .error (.emptyRange lo c) else .ok ⟨k.negated, true, false, (lo, c) :: rest⟩
  | _, ranges => .ok ⟨k.negated, true, false, (c, c) :: ranges⟩

/-- The piece of a class. A last dash is a character. -/
def piece (k : OpenClass) : Piece :=
  .oneOf k.negated ((if k.dashed then ('-', '-') :: k.ranges else k.ranges).reverse)

end OpenClass

/-- Where the reader stands: outside of classes, at the start of one, or in one. -/
inductive Place where
  | outside
  | classStart
  | inside (k : OpenClass)

/-- Takes in a character of a class, `none` where it ends the class. -/
def OpenClass.step (k : OpenClass) (c : Char) : Except Flaw (Option OpenClass) :=
  if c = ']' ∧ k.begun then .ok none
  else if c = '-' ∧ k.begun ∧ !k.dashed then .ok (some { k with dashed := true })
  else (k.take c).map some

def read : Place → Progress → Option Char → List Char → Except Flaw (List Piece)
  | .outside, s, _, [] => if s.groups.isEmpty then .ok s.branch.reverse else .error .unclosedGroup
  | .classStart, _, _, [] => .error .unclosedClass
  | .inside _, _, _, [] => .error .unclosedClass
  | .classStart, s, _, c :: rest =>
    if c = '!' ∨ c = '^' then read (.inside ⟨true, false, false, []⟩) s (some c) rest
    else do
      let k ← (⟨false, false, false, []⟩ : OpenClass).take c
      read (.inside k) s (some c) rest
  | .inside k, s, _, c :: rest => do
    match ← k.step c with
    | some k => read (.inside k) s (some c) rest
    | none => read .outside (s.push k.piece) (some c) rest
  | .outside, s, prev, '*' :: '*' :: rest =>
    match rest with
    | [] => read .outside (s.doubleStar prev none).1 (some '*') []
    | c :: tail =>
      let (s, taken) := s.doubleStar prev (some c)
      if taken then read .outside s (some c) tail else read .outside s (some '*') (c :: tail)
  | .outside, s, _, '\\' :: c :: rest => read .outside (s.push (.literal c)) (some c) rest
  | .outside, s, _, c :: rest =>
    if c = '?' then read .outside (s.push .single) (some c) rest
    else if c = '*' then read .outside (s.push .run) (some c) rest
    else if c = '[' then read .classStart s (some c) rest
    else if c = '\x7b' then read .outside s.openGroup (some c) rest
    else if c = '\x7d' then do read .outside (← s.closeGroup) (some c) rest
    else if c = ',' then read .outside s.nextBranch (some c) rest
    else if c = '\\' then .error .danglingEscape
    else read .outside (s.push (.literal c)) (some c) rest

end MetricAgent.Glob
