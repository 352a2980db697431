import MetricAgent.ErrorClass
import MetricAgent.Glob.Basic
import MetricAgent.Metric.Basic

/-!
# Filters

A filter selects metrics by their name and by the values of their tags, and
trims those it selects: fields and tags whose keys do not pass are removed and
tags are renamed. A metric that is left without fields is refused like one
that was not selected.

The filter itself works on tests, which may be any predicates on texts;
`FilterConfig.compile` makes them from lists of patterns. An empty list is no
constraint, neither for a key nor as the list of a tag.
-/

namespace MetricAgent

abbrev TextTest := String → Bool

structure Filter where
  namePass : Option TextTest
  nameDrop : Option TextTest
  tagPass : List (String × TextTest)
  tagDrop : List (String × TextTest)
  fieldPass : Option TextTest
  fieldDrop : Option TextTest
  tagInclude : Option TextTest
  tagExclude : Option TextTest
  /-- Old and new keys of tags, in the order in which they are applied. -/
  tagRename : List (String × String)

namespace Filter

def empty : Filter := ⟨none, none, [], [], none, none, none, none, []⟩

/-- Whether the filter can change or refuse anything. -/
def isActive (f : Filter) : Bool :=
  f.namePass.isSome || f.nameDrop.isSome || !f.tagPass.isEmpty || !f.tagDrop.isEmpty ||
    f.fieldPass.isSome || f.fieldDrop.isSome || f.tagInclude.isSome || f.tagExclude.isSome ||
    !f.tagRename.isEmpty

/-- Whether a text passes, where the absence of a test lets all pass. -/
def passes (test : Option TextTest) (s : String) : Bool := test.all fun t => t s

/-- Whether a text is hit, where the absence of a test hits none. -/
def hits (test : Option TextTest) (s : String) : Bool := test.any fun t => t s

def anyTagMatches (m : Metric) (tests : List (String × TextTest)) : Bool :=
  tests.any fun (key, test) => (m.tag? key).any test

def select (f : Filter) (m : Metric) : Bool :=
  passes f.namePass m.name && !hits f.nameDrop m.name &&
    (f.tagPass.isEmpty || anyTagMatches m f.tagPass) && !anyTagMatches m f.tagDrop

/-- Moves the value of a tag to another key, where it replaces what is there. -/
def renameTag (m : Metric) (change : String × String) : Metric :=
  match m.tag? change.1 with
  | some value => (m.removeTag change.1).addTag change.2 value
  | none => m

def trim (f : Filter) (m : Metric) : Metric :=
  (m.filterFields fun key => passes f.fieldPass key && !hits f.fieldDrop key).filterTags fun key =>
    passes f.tagInclude key && !hits f.tagExclude key

def modify (f : Filter) (m : Metric) : Metric := f.tagRename.foldl renameTag (f.trim m)

def apply (f : Filter) (m : Metric) : Option Metric :=
  if !f.isActive then some m
  else if !f.select m then none
  else
    let m := f.modify m
    if m.fields.isEmpty then none else some m

@[simp] theorem apply_empty (m : Metric) : empty.apply m = some m := rfl

end Filter

/-- A filter as it is configured. Each key occurs once in the lists of pairs. -/
structure FilterConfig where
  namePass : List String
  nameDrop : List String
  tagPass : List (String × List String)
  tagDrop : List (String × List String)
  fieldPass : List String
  fieldDrop : List String
  tagInclude : List String
  tagExclude : List String
  tagRename : List (String × String)
deriving DecidableEq, Repr

namespace FilterConfig

def empty : FilterConfig := ⟨[], [], [], [], [], [], [], [], []⟩

def compileList (patterns : List String) : Except Glob.Failure (Option TextTest) :=
  if patterns.isEmpty then .ok none
  else do
    let globs ← Glob.ofPatterns patterns
    return some fun s => globs.any fun g => g.accepts s

/-- The tests of tag values. A tag with no patterns is no constraint. -/
def compileTags : List (String × List String) →
    Except Glob.Failure (List (String × TextTest))
  | [] => .ok []
  | (key, patterns) :: rest => do
    let test ← compileList patterns
    let tests ← compileTags rest
    return (test.map fun t => (key, t)).toList ++ tests

/-- Compiles all patterns, list by list, up to the first failure. -/
def compile (c : FilterConfig) : Except Glob.Failure Filter := do
  let namePass ← compileList c.namePass
  let nameDrop ← compileList c.nameDrop
  let tagPass ← compileTags c.tagPass
  let tagDrop ← compileTags c.tagDrop
  let fieldPass ← compileList c.fieldPass
  let fieldDrop ← compileList c.fieldDrop
  let tagInclude ← compileList c.tagInclude
  let tagExclude ← compileList c.tagExclude
  return ⟨namePass, nameDrop, tagPass, tagDrop, fieldPass, fieldDrop, tagInclude, tagExclude,
    SortedPairs.ofList c.tagRename⟩

@[simp] theorem compileList_nil : compileList [] = .ok none := rfl

@[simp] theorem compile_empty : empty.compile = .ok Filter.empty := rfl

end FilterConfig

def Glob.Failure.errorClass (_ : Glob.Failure) : ErrorClass := .fatalConfig

end MetricAgent
