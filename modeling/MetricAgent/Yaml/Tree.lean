import MetricAgent.Yaml.Node
import MetricAgent.Yaml.Scanner

/-!
# Trees

A tree is a document in which every alias has been replaced by the node it
stands for. There are two limits on what a document may unfold to: collections
nest at most 128 deep, which also ends a node that contains itself, and a
document of `n` parts follows at most `100 * n` aliases. What lies beyond them
is broken, like a node that could not be read.

A text that is not a document, or is more than one, still has a tree up to
where that shows. Whoever reads it comes to the parts in their order, and only
at the end to the question whether the document is whole. So of two things
that are wrong the first one counts.
-/

namespace MetricAgent.Yaml

/-- A node without aliases. -/
inductive Tree where
  | scalar (tag : FullTag) (style : ScalarStyle) (text : String)
  | sequence (tag : FullTag) (items : List Tree)
  | mapping (tag : FullTag) (entries : List (Tree × Tree))
  | broken
deriving Repr

namespace Node

def anchorNumber : Node → Option Nat
  | scalar a .. => a
  | sequence a .. => a
  | mapping a .. => a
  | reference _ => none
  | broken => none

mutual

/-- A node and all nodes in it, each before those in it. -/
def subnodes (n : Node) : List Node :=
  match n with
  | scalar .. => [n]
  | sequence _ _ items => n :: itemSubnodes items
  | mapping _ _ entries => n :: entrySubnodes entries
  | reference _ => [n]
  | broken => []

def itemSubnodes : List Node → List Node
  | [] => []
  | item :: rest => subnodes item ++ itemSubnodes rest

def entrySubnodes : List (Node × Node) → List Node
  | [] => []
  | (key, value) :: rest => subnodes key ++ (subnodes value ++ entrySubnodes rest)

end

/-- The number of parts of a node, where the start and the end of a collection
are two. -/
def partCount (n : Node) : Nat :=
  n.subnodes.foldl (fun count m => match m with
    | sequence .. | mapping .. => count + 2
    | _ => count + 1) 0

/-- What an alias stands for: the last one of the nodes with its number. -/
def target? (anchored : List Node) (number : Nat) : Option Node :=
  (anchored.filter fun m => m.anchorNumber = some number).getLast?

/-- Replaces the aliases in a node of which collections may still nest `depth`
deep. The state is the number of aliases that may still be followed. -/
def unfold (anchored : List Node) : Nat → Node → StateM Nat Tree
  | depth, n => do
    let n ← match n with
      | reference number =>
        let left ← get
        set (left - 1)
        pure (if left = 0 then broken else (target? anchored number).getD broken)
      | n => pure n
    match n, depth with
    | scalar _ tag style text, _ => return .scalar tag style text
    | sequence _ tag items, depth + 1 => return .sequence tag (← items.mapM (unfold anchored depth))
    | mapping _ tag entries, depth + 1 =>
      return .mapping tag (← entries.mapM fun (key, value) => do
        return (← unfold anchored depth key, ← unfold anchored depth value))
    | _, _ => return .broken

def maxDepth : Nat := 128

/-- How many aliases may be followed for each part of a document. -/
def aliasesPerPart : Nat := 100

end Node

def Tree.ofNode (n : Node) : Tree :=
  let anchored := n.subnodes.filter fun m => m.anchorNumber.isSome
  ((n.unfold anchored Node.maxDepth).run (Node.aliasesPerPart * n.partCount)).1

structure Document where
  root : Tree
  /-- Whether the text is nothing but the document. -/
  whole : Bool

/-- The document of a text, as far as it can be read. -/
def Document.ofText (s : String) : Document :=
  let (node, whole) := Node.ofTokens (TokenStream.ofText s)
  ⟨Tree.ofNode node, whole⟩

end MetricAgent.Yaml
