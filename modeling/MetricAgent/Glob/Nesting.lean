import MetricAgent.Glob.Piece

/-!
# How deep patterns nest

A pattern stands for an expression, in which a sequence of several parts, a
repetition, a class, a group and a choice between several branches are one
level each. Their depth is limited.

The parts of a sequence are counted as the expression has them: each byte of a
character is one, and what can only match the empty text is none.
-/

namespace MetricAgent.Glob

/-- The number of parts that a piece is in a sequence. -/
def Piece.width : Piece → Nat
  | .literal c => (charBytes c).length
  | .trailing => 2
  | .choice branches => if eachVoid branches then 0 else 1
  | _ => 1

def width (ps : List Piece) : Nat := ps.foldl (fun n p => n + p.width) 0

/-- A level of its own, if there are several things. -/
def levelOf (count : Nat) : Nat := if 1 < count then 1 else 0

mutual

def Piece.depth : Piece → Nat
  | .literal _ => 0
  | .single => 0
  | .run => 1
  | .oneOf _ ranges => 1 + levelOf (ranges.flatMap fun r => byteRanges r.1 r.2).length
  | .leading => 4
  | .trailing => 1
  | .inner => 4
  | .choice branches =>
    if eachVoid branches then 0
    else 1 + levelOf (branches.filter fun b => !allVoid b).length + branchDepth branches

def pieceDepth : List Piece → Nat
  | [] => 0
  | p :: ps => max p.depth (pieceDepth ps)

def branchDepth : List (List Piece) → Nat
  | [] => 0
  | b :: bs => max (levelOf (width b) + pieceDepth b) (branchDepth bs)

end

@[simp] theorem pieceDepth_nil : pieceDepth [] = 0 := by rw [pieceDepth]

def depthLimit : Nat := 250

/-- Whether pieces nest too deep for a pattern. As a pattern they are always a
sequence, with its start and its end. -/
def isTooDeep (ps : List Piece) : Bool := depthLimit < 1 + pieceDepth ps

end MetricAgent.Glob
