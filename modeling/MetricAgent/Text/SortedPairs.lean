/-!
# Sorted pairs

A list of keys with values that is strictly sorted by key. `insert` walks to
the place of a key and either replaces the value there or puts the pair in, so
a list that starts empty never holds a key twice, and its order does not depend
on the order of insertion.
-/

namespace MetricAgent

abbrev SortedPairs (α : Type) := List (String × α)

namespace SortedPairs

variable {α : Type}

def insert (key : String) (value : α) : SortedPairs α → SortedPairs α
  | [] => [(key, value)]
  | (k, v) :: rest =>
    if key = k then (key, value) :: rest
    else if key < k then (key, value) :: (k, v) :: rest
    else (k, v) :: insert key value rest

def insertAll (pairs : List (String × α)) (sorted : SortedPairs α) : SortedPairs α :=
  pairs.foldl (fun s p => insert p.1 p.2 s) sorted

/-- Sorts any list of pairs, a later pair replacing an earlier one. -/
def ofList (pairs : List (String × α)) : SortedPairs α := insertAll pairs []

def Sorted (pairs : SortedPairs α) : Prop := pairs.Pairwise fun a b => a.1 < b.1

instance (pairs : SortedPairs α) : Decidable (Sorted pairs) :=
  inferInstanceAs (Decidable (List.Pairwise _ _))

@[simp] theorem insert_nil (key : String) (value : α) : insert key value [] = [(key, value)] := rfl

@[simp] theorem insertAll_nil (pairs : SortedPairs α) : insertAll [] pairs = pairs := rfl

@[simp] theorem insertAll_cons (p : String × α) (pairs : List (String × α))
    (sorted : SortedPairs α) :
    insertAll (p :: pairs) sorted = insertAll pairs (insert p.1 p.2 sorted) := rfl

theorem sorted_nil : Sorted ([] : SortedPairs α) := List.Pairwise.nil

end SortedPairs

end MetricAgent
