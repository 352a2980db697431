import MetricAgent.Text.SortedPairs
import Mathlib.Data.List.Nodup
import Mathlib.Data.List.Perm.Basic

/-!
# Pairs put in order

Pairs whose keys differ are only put in order: none is added and none is lost
(`SortedPairs.ofList_perm`), and as there is one order of their keys, they come out
in it in whatever order they went in (`SortedPairs.ofList_eq_of_perm`).
-/

namespace MetricAgent

namespace SortedPairs

variable {α : Type}

theorem mem_of_mem_insert {key : String} {value : α} {pairs : SortedPairs α} {p : String × α}
    (h : p ∈ insert key value pairs) : p = (key, value) ∨ p ∈ pairs := by
  induction pairs with
  | nil => exact .inl (List.mem_singleton.1 h)
  | cons q pairs ih =>
      rw [insert] at h
      split at h
      · exact (List.mem_cons.1 h).imp_right (List.mem_cons_of_mem q)
      · split at h
        · exact List.mem_cons.1 h
        · rcases List.mem_cons.1 h with rfl | h
          · exact .inr List.mem_cons_self
          · exact (ih h).imp_right (List.mem_cons_of_mem q)

theorem mem_of_mem_insertAll {pairs : List (String × α)} {sorted : SortedPairs α} {p : String × α}
    (h : p ∈ insertAll pairs sorted) : p ∈ pairs ∨ p ∈ sorted := by
  induction pairs generalizing sorted with
  | nil => exact .inr h
  | cons q pairs ih =>
      rcases ih h with h | h
      · exact .inl (List.mem_cons_of_mem q h)
      · rcases mem_of_mem_insert h with rfl | h
        · exact .inl List.mem_cons_self
        · exact .inr h

/-- Sorting pairs adds none. -/
theorem mem_of_mem_ofList {pairs : List (String × α)} {p : String × α} (h : p ∈ ofList pairs) :
    p ∈ pairs :=
  (mem_of_mem_insertAll h).resolve_right List.not_mem_nil

theorem insert_perm {key : String} {pairs : SortedPairs α} (h : key ∉ pairs.map Prod.fst)
    (value : α) : (insert key value pairs).Perm ((key, value) :: pairs) := by
  induction pairs with
  | nil => exact .refl _
  | cons p pairs ih =>
      obtain ⟨hne, hrest⟩ := not_or.1 (mt List.mem_cons.2 h)
      rw [insert, if_neg hne]
      split
      · exact .refl _
      · exact ((ih hrest).cons p).trans (.swap _ _ _)

theorem insertAll_perm {pairs : List (String × α)} {sorted : SortedPairs α}
    (h : ((pairs ++ sorted).map Prod.fst).Nodup) :
    (insertAll pairs sorted).Perm (pairs ++ sorted) := by
  induction pairs generalizing sorted with
  | nil => exact .refl _
  | cons p pairs ih =>
      have hp : p.1 ∉ sorted.map Prod.fst := by
        intro hmem
        rw [List.cons_append, List.map_cons, List.nodup_cons, List.map_append] at h
        exact h.1 (List.mem_append_right _ hmem)
      have hinsert : (pairs ++ insert p.1 p.2 sorted).Perm (p :: pairs ++ sorted) :=
        ((insert_perm hp p.2).append_left pairs).trans List.perm_middle
      exact (ih ((hinsert.map Prod.fst).nodup_iff.2 h)).trans hinsert

/-- Sorting pairs with different keys loses none. -/
theorem ofList_perm {pairs : List (String × α)} (h : (pairs.map Prod.fst).Nodup) :
    (ofList pairs).Perm pairs := by
  have hall : ((pairs ++ []).map Prod.fst).Nodup := by rwa [List.append_nil]
  have hperm := insertAll_perm hall
  rwa [List.append_nil] at hperm

/-! ### The order -/

theorem sorted_insert {pairs : SortedPairs α} (h : Sorted pairs) (key : String) (value : α) :
    Sorted (insert key value pairs) := by
  induction pairs with
  | nil => exact List.pairwise_singleton _ _
  | cons p pairs ih =>
      obtain ⟨k, v⟩ := p
      obtain ⟨hlt, hrest⟩ := List.pairwise_cons.1 h
      rw [insert]
      split
      · next heq =>
        subst heq
        exact List.pairwise_cons.2 ⟨hlt, hrest⟩
      · next hne =>
        split
        · next hbefore =>
          refine List.pairwise_cons.2 ⟨fun q hq => ?_, h⟩
          rcases List.mem_cons.1 hq with rfl | hq
          · exact hbefore
          · exact String.lt_trans hbefore (hlt q hq)
        · next hbefore =>
          refine List.pairwise_cons.2 ⟨fun q hq => ?_, ih hrest⟩
          rcases mem_of_mem_insert hq with rfl | hq
          · exact Std.lt_of_le_of_ne (String.not_lt.1 hbefore) (Ne.symm hne)
          · exact hlt q hq

theorem sorted_ofList (pairs : List (String × α)) : Sorted (ofList pairs) :=
  List.foldlRecOn (motive := Sorted) pairs _ sorted_nil fun _ h p _ => sorted_insert h p.1 p.2

/-- Pairs come out in the order of their keys, in whatever order they went in. -/
theorem ofList_eq_of_perm {pairs sorted : List (String × α)} (hperm : pairs.Perm sorted)
    (h : Sorted sorted) : ofList pairs = sorted := by
  have hnodup : (pairs.map Prod.fst).Nodup :=
    (hperm.map _).nodup_iff.2 (List.pairwise_map.2 (h.imp Std.ne_of_lt))
  refine ((ofList_perm hnodup).trans hperm).eq_of_pairwise (fun p q _ _ hlt hgt => ?_)
    (sorted_ofList pairs) h
  exact absurd (String.lt_trans hlt hgt) (String.lt_irrefl _)

end SortedPairs

end MetricAgent
