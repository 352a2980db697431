import MetricAgent.Text.SortedPairs

/-!
# Tag lists

The tags of a metric are kept sorted by key, so that two lists with the same
tags are equal whatever happened to them. The place of a key is searched for by
halving, which finds it in a sorted list only; all that reads or changes one
tag goes through `place`.
-/

namespace MetricAgent

abbrev Tags := SortedPairs String

namespace Tags

inductive Place where
  | found (i : Nat)
  /-- No tag has the key, and one that is put in here keeps the order. -/
  | absent (i : Nat)
deriving DecidableEq, Repr

/-- Halves the stretch of `size` tags that begins at `base` down to one tag. The
stretch always holds the last tag whose key is not above the one searched for,
if there is such a tag. -/
def narrow (key : String) (tags : Tags) (base size : Nat) : Nat :=
  if _h : size ≤ 1 then base
  else
    let half := size / 2
    let above := tags[base + half]?.all fun t => key < t.1
    narrow key tags (if above then base else base + half) (size - half)
termination_by size
decreasing_by omega

def place (key : String) (tags : Tags) : Place :=
  let i := narrow key tags 0 tags.length
  match tags[i]? with
  | none => .absent 0
  | some t => if t.1 = key then .found i else .absent (if t.1 < key then i + 1 else i)

def get? (key : String) (tags : Tags) : Option String :=
  match place key tags with
  | .found i => tags[i]?.map Prod.snd
  | .absent _ => none

def has (key : String) (tags : Tags) : Bool :=
  match place key tags with
  | .found _ => true
  | .absent _ => false

def insert (key value : String) (tags : Tags) : Tags :=
  match place key tags with
  | .found i => tags.modify i fun t => (t.1, value)
  | .absent i => tags.insertIdx i (key, value)

def insertAll (pairs : List (String × String)) (tags : Tags) : Tags :=
  pairs.foldl (fun ts p => insert p.1 p.2 ts) tags

def insertMissing (pairs : List (String × String)) (tags : Tags) : Tags :=
  pairs.foldl (fun ts p => if has p.1 ts then ts else insert p.1 p.2 ts) tags

def erase (key : String) (tags : Tags) : Tags :=
  match place key tags with
  | .found i => tags.eraseIdx i
  | .absent _ => tags

@[simp] theorem insertAll_nil (tags : Tags) : insertAll [] tags = tags := rfl

@[simp] theorem insertAll_cons (p : String × String) (pairs : List (String × String))
    (tags : Tags) : insertAll (p :: pairs) tags = insertAll pairs (insert p.1 p.2 tags) := rfl

end Tags

end MetricAgent
