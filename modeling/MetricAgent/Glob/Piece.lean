import MetricAgent.Text.Bytes

/-!
# Patterns and what they match

A pattern is a sequence of pieces, and it matches a text as a whole, byte by
byte. A wildcard takes any bytes, the separator `/` included; only the three
kinds of double stars know of separators.

Matching keeps one mark for each place in the text, before its first byte and
behind every byte. A place is marked if the pieces so far can match what lies
before it. Each piece turns such marks into new ones, and the pattern matches
if the last place is marked in the end. No piece is tried twice at a place.
-/

namespace MetricAgent.Glob

inductive Piece where
  | literal (c : Char)
  /-- Any single byte, written `?`. -/
  | single
  /-- Any bytes, written `*`. -/
  | run
  /-- One byte of a class, or of none of it. -/
  | oneOf (negated : Bool) (ranges : List (Char × Char))
  /-- Any leading components, written as two stars and a separator. -/
  | leading
  /-- Everything below a component, written as a separator and two stars. -/
  | trailing
  /-- Any components in between, written as two stars between separators. -/
  | inner
  | choice (branches : List (List Piece))

/-- One mark for each place in a text. -/
abbrev Marks := List Bool

namespace Marks

/-- Only the place before the first byte is marked. -/
def start (text : List UInt8) : Marks := true :: text.map fun _ => false

/-- Any bytes are skipped: all places from the first mark on are marked. -/
def afterRun : Bool → Marks → Marks
  | _, [] => []
  | seen, m :: ms => (seen || m) :: afterRun (seen || m) ms

def afterByte (text : List UInt8) (test : UInt8 → Bool) (ms : Marks) : Marks :=
  false :: text.zipWith (fun b m => m && test b) ms

def afterSeparator (text : List UInt8) (ms : Marks) : Marks := ms.afterByte text (· == 0x2f)

def afterBytes (text bs : List UInt8) (ms : Marks) : Marks :=
  bs.foldl (fun ms b => ms.afterByte text (· == b)) ms

def merge (as bs : Marks) : Marks := as.zipWith or bs

end Marks

def charBytes (c : Char) : List UInt8 := String.utf8EncodeChar c

/-- The ranges of bytes that a range of characters stands for: the bytes of
either end one by one, and those from the last byte of the one to the first of
the other. -/
def byteRanges (lo hi : Char) : List (UInt8 × UInt8) :=
  if lo = hi then (charBytes lo).map fun b => (b, b)
  else
    ((charBytes lo).dropLast.map fun b => (b, b)) ++
      [((charBytes lo).getLastD 0, (charBytes hi).headD 0)] ++
      (charBytes hi).tail.map fun b => (b, b)

def inClass (negated : Bool) (ranges : List (Char × Char)) (b : UInt8) : Bool :=
  negated != (ranges.flatMap fun r => byteRanges r.1 r.2).any fun r => r.1 ≤ b && b ≤ r.2

mutual

/-- Whether a piece cannot match anything but the empty text, because all its
branches are empty. -/
def Piece.isVoid : Piece → Bool
  | .choice branches => eachVoid branches
  | _ => false

def allVoid : List Piece → Bool
  | [] => true
  | p :: ps => p.isVoid && allVoid ps

def eachVoid : List (List Piece) → Bool
  | [] => true
  | b :: bs => allVoid b && eachVoid bs

end

mutual

def Piece.after (text : List UInt8) : Piece → Marks → Marks
  | .literal c, ms => ms.afterBytes text (charBytes c)
  | .single, ms => ms.afterByte text fun _ => true
  | .run, ms => ms.afterRun false
  | .oneOf negated ranges, ms => ms.afterByte text (inClass negated ranges)
  | .leading, ms =>
    ms.merge ((ms.afterSeparator text).merge ((ms.afterRun false).afterSeparator text))
  | .trailing, ms => (ms.afterSeparator text).afterRun false
  | .inner, ms =>
    let below := ms.afterSeparator text
    below.merge ((below.afterRun false).afterSeparator text)
  | .choice branches, ms => if eachVoid branches then ms else afterAny text branches ms

def after (text : List UInt8) : List Piece → Marks → Marks
  | [], ms => ms
  | p :: ps, ms => after text ps (p.after text ms)

/-- The places behind one of several branches. A void branch does not count. -/
def afterAny (text : List UInt8) : List (List Piece) → Marks → Marks
  | [], ms => ms.map fun _ => false
  | b :: bs, ms =>
    if allVoid b then afterAny text bs ms else (after text b ms).merge (afterAny text bs ms)

end

end MetricAgent.Glob
