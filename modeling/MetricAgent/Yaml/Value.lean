import MetricAgent.Yaml.Atom
import MetricAgent.Yaml.Tree

/-!
# Values

A tree as a value of its own, when nothing is known about what it is for. A
mapping keeps the order of its entries, and no key may occur twice in it. Keys
are the same if they are the same values: an integer in any base, the two zeros
and any undefined numbers among each other, mappings in any order.
-/

namespace MetricAgent.Yaml

inductive Value where
  | atom (a : Atom)
  | sequence (items : List Value)
  | mapping (entries : List (Value × Value))
  | tagged (name : String) (content : Value)
deriving Repr, Inhabited

namespace Atom

def same : Atom → Atom → Bool
  | .float x, .float y => (x.isNaN && y.isNaN) || x.sameNumber y
  | a, b => a == b

end Atom

namespace Value

def null : Value := .atom .null

mutual

def same : Value → Value → Bool
  | .atom a, .atom b => a.same b
  | .sequence xs, .sequence ys => sameItems xs ys
  | .mapping xs, .mapping ys => xs.length == ys.length && sameEntries xs ys
  | .tagged n x, .tagged m y => n == m && same x y
  | _, _ => false

def sameItems : List Value → List Value → Bool
  | [], [] => true
  | x :: xs, y :: ys => same x y && sameItems xs ys
  | _, _ => false

def sameEntries : List (Value × Value) → List (Value × Value) → Bool
  | [], _ => true
  | (k, v) :: rest, ys => ys.any (fun e => same k e.1 && same v e.2) && sameEntries rest ys

end

def hasKey (key : Value) (entries : List (Value × Value)) : Bool :=
  entries.any fun e => same key e.1

/-- A collection under its tag, if that is a custom one. -/
def withTag (tag : FullTag) (v : Value) : Value :=
  match Atom.customTag? tag with
  | some name => .tagged name v
  | none => v

mutual

/-- The value of a tree. The tag of a scalar that stands under a custom tag of
its own has been used up. -/
def ofTree? : Tree → Option Value
  | .scalar tag style s =>
    match Atom.customTag? tag with
    | some name => (Atom.ofScalar? none style s).map fun a => .tagged name (.atom a)
    | none => (Atom.ofScalar? tag style s).map .atom
  | .sequence tag items => (ofItems? items).map fun xs => withTag tag (.sequence xs)
  | .mapping tag entries => (ofEntries? [] entries).map fun xs => withTag tag (.mapping xs)
  | .broken => none

def ofItems? : List Tree → Option (List Value)
  | [] => some []
  | item :: rest => do return (← ofTree? item) :: (← ofItems? rest)

/-- The values of the entries of a mapping, behind others that are given in
reverse. -/
def ofEntries? (before : List (Value × Value)) : List (Tree × Tree) →
    Option (List (Value × Value))
  | [] => some before.reverse
  | (key, value) :: rest => do
    let k ← ofTree? key
    if hasKey k before then none
    else
      let v ← ofTree? value
      ofEntries? ((k, v) :: before) rest

end

end Value

end MetricAgent.Yaml
