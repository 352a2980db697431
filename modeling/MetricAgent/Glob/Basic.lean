import MetricAgent.Glob.Expression
import MetricAgent.Glob.Nesting
import MetricAgent.Glob.Reading
import MetricAgent.Text.Quoted

/-!
# Globs

A glob is a pattern that has been read. It matches a text from its first byte
to its last. A pattern that fixes the end of the last component only, by an
extension or as a whole, has one exception: it does not look into a text whose
last component is `..`, which is the name of no file.

Patterns are compiled in lists. Most of them need an expression, which must not
nest too deep: one of its own for a pattern that ends in an extension, and one
for all the others together.
-/

namespace MetricAgent

structure Glob where
  pieces : List Glob.Piece

namespace Glob

def literals? : List Piece → Option (List Char)
  | [] => some []
  | .literal c :: ps => (literals? ps).map (c :: ·)
  | _ => none

/-- Whether pieces are literals other than a separator. -/
def isComponent (ps : List Piece) : Bool :=
  !ps.isEmpty && (literals? ps).any fun cs => !cs.contains '/'

/-- Whether pieces, in reverse, begin with an extension: literals other than a
separator, the last of them a point. -/
def endsInExtension : List Piece → Bool
  | .literal c :: ps => c == '.' || (c != '/' && endsInExtension ps)
  | _ => false

def isExtension : List Piece → Bool
  | .run :: .literal '.' :: ps => ps.isEmpty ||
      (isComponent ps && (literals? ps).any fun cs => !cs.contains '.')
  | _ => false

/-- Whether pieces are literals, which are all there is or a separator at
least, and perhaps any bytes behind them. -/
def isFront (ps : List Piece) : Bool :=
  match ps.getLast? with
  | some .run => (literals? ps.dropLast).any fun cs => !cs.isEmpty
  | some .trailing => (literals? ps.dropLast).isSome
  | _ => (literals? ps).any fun cs => !cs.isEmpty

/-- Whether pieces are any bytes and literals, more than a single separator. -/
def isBack : List Piece → Bool
  | .leading :: .run :: ps => (literals? ps).any fun cs => !cs.isEmpty && cs != ['/']
  | .leading :: ps => (literals? ps).any fun cs => !cs.isEmpty
  | .run :: ps => (literals? ps).any fun cs => !cs.isEmpty && cs != ['/']
  | _ => false

/-- What it takes to compile a pattern. -/
inductive Strategy where
  /-- The last component is compared, or its extension. -/
  | component
  /-- The start or the end of a text is compared, or all of it. -/
  | literal
  /-- An expression for the texts with an extension. -/
  | extension
  /-- An expression for all texts. -/
  | search
deriving DecidableEq, Repr

def strategy (g : Glob) : Strategy :=
  let named := match g.pieces with
    | .leading :: ps => isComponent ps || isExtension ps
    | ps => isExtension ps
  if named then .component
  else if isFront g.pieces || isBack g.pieces then .literal
  else if endsInExtension g.pieces.reverse then .extension
  else .search

/-- Whether a pattern only matches texts that have a last component. -/
def needsComponent (g : Glob) : Bool := g.strategy == .component || g.strategy == .extension

def endsInParent (bs : List UInt8) : Bool := bs.reverse.takeWhile (· != 0x2f) == [0x2e, 0x2e]

/-- Where a list of patterns nests too deep. -/
inductive Excess where
  /-- In an expression of its own. -/
  | alone (expression : String)
  /-- In one of those that are compiled together. -/
  | among (index : Nat)
deriving DecidableEq, Repr

def Excess.message : Excess → String
  | .alone expression => "error parsing glob '" ++ expression ++ "': error parsing pattern 0"
  | .among index => "error parsing pattern " ++ toString index

inductive Failure where
  | unreadable (pattern : String) (flaw : Flaw)
  | tooDeep (patterns : List String) (excess : Excess)
deriving DecidableEq, Repr

def Failure.message : Failure → String
  | .unreadable pattern flaw =>
    "invalid glob " ++ Text.quoted pattern ++ ": error parsing glob '" ++ pattern ++ "': " ++
      flaw.message
  | .tooDeep patterns excess =>
    "invalid glob " ++ Text.quoted (String.intercalate "," patterns) ++ ": " ++ excess.message

def ofPattern (pattern : String) : Except Failure Glob :=
  match read .outside ⟨[], []⟩ none pattern.toList with
  | .ok pieces => .ok ⟨pieces⟩
  | .error flaw => .error (.unreadable pattern flaw)

/-- Where patterns nest too deep, the expressions for texts with an extension
coming first. -/
def excess? (gs : List Glob) : Option Excess :=
  match gs.find? fun g => g.strategy == .extension && isTooDeep g.pieces with
  | some g => some (.alone (expression g.pieces))
  | none =>
    ((gs.filter fun g => g.strategy == .search).findIdx? fun g => isTooDeep g.pieces).map .among

def ofPatterns (patterns : List String) : Except Failure (List Glob) := do
  let gs ← patterns.mapM ofPattern
  match excess? gs with
  | some excess => throw (.tooDeep patterns excess)
  | none => return gs

/-- Whether the bytes of a text match, `everything` being two stars alone. -/
def matchesBytes (g : Glob) (bs : List UInt8) : Bool :=
  match g.pieces with
  | [.leading] => true
  | pieces => !(g.needsComponent && endsInParent bs) && (after bs pieces (Marks.start bs)).getLastD false

def accepts (g : Glob) (s : String) : Bool := g.matchesBytes (Text.bytes s)

end Glob

end MetricAgent
