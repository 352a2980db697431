import MetricAgent.Glob.Piece

/-!
# The expressions that patterns stand for

A pattern stands for a regular expression over bytes. Characters that mean
something in one are escaped, and so are bytes that are no characters.
-/

namespace MetricAgent.Glob

/-- Whether a character means something in an expression. -/
def isMeta (c : Char) : Bool := "\\.+*?()|[]\x7b\x7d^$#&-~".toList.contains c

def byteText (b : UInt8) : List Char :=
  let n := b.toNat
  if 0x7f < n then ['\\', 'x', Nat.digitChar (n / 16), Nat.digitChar (n % 16)]
  else if isMeta (Char.ofNat n) then ['\\', Char.ofNat n]
  else [Char.ofNat n]

def charText (c : Char) : List Char := (charBytes c).flatMap byteText

def rangeText (lo hi : Char) : List Char :=
  if lo = hi then charText lo else charText lo ++ '-' :: charText hi

def joinBranches : List (List Char) → List Char
  | [] => []
  | [b] => b
  | b :: bs => b ++ '|' :: joinBranches bs

/-- The text of a choice, if any of its branches has one. -/
def choiceText (branches : List (List Char)) : List Char :=
  match branches.filter (· ≠ []) with
  | [] => []
  | bs => "(?:".toList ++ joinBranches bs ++ [')']

mutual

def Piece.text : Piece → List Char
  | .literal c => charText c
  | .single => ['.']
  | .run => ".*".toList
  | .oneOf negated ranges =>
    '[' :: (if negated then ['^'] else []) ++ (ranges.flatMap fun r => rangeText r.1 r.2) ++ [']']
  | .leading => "(?:/?|.*/)".toList
  | .trailing => "/.*".toList
  | .inner => "(?:/|/.*/)".toList
  | .choice branches => choiceText (branchTexts branches)

def sequenceText : List Piece → List Char
  | [] => []
  | p :: ps => p.text ++ sequenceText ps

def branchTexts : List (List Piece) → List (List Char)
  | [] => []
  | b :: bs => sequenceText b :: branchTexts bs

end

@[simp] theorem sequenceText_nil : sequenceText [] = [] := by rw [sequenceText]

def expression (ps : List Piece) : String :=
  String.ofList ("(?-u)^".toList ++ sequenceText ps ++ ['$'])

end MetricAgent.Glob
