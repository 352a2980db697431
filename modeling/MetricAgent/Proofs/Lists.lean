import Mathlib.Data.List.Forall2
import Mathlib.Data.List.Induction
import Mathlib.Data.List.Nodup
import Mathlib.Data.List.Perm.Basic

/-!
# Taking elements out of a list

Entries, batches and results are taken out of lists in two ways: by their place
and by their number. Both are said here as permutations, for elements of any
type and any number as their key. A list of pairs whose keys differ is looked up
as a map, which `mem_iff_lookup` makes a matter of membership. The images of some
elements can be taken out in any order, which is an order of the elements
(`exists_perm_of_perm_map`). Elements whose keys differ have one order of their
keys, which sorting finds (`mergeSort_key_eq`). What has been
seen is listed in the order of first sight, which grows at its end only
(`eraseDups_concat`), as does the last of the parts into which a list is split
(`exists_splitOnP_concat`). What comes before an element that ends it can be taken off
the front (`append_cons_inj_of_not_mem`).
-/

namespace MetricAgent

variable {β : Type}

theorem perm_cons_eraseIdx {xs : List β} {i : Nat} {x : β} (h : xs[i]? = some x) :
    xs.Perm (x :: xs.eraseIdx i) := by
  obtain ⟨hi, rfl⟩ := List.getElem?_eq_some_iff.1 h
  exact (List.getElem_cons_eraseIdx_perm hi).symm

theorem insertIdx_length_append (xs ys : List β) (y : β) :
    (xs ++ ys).insertIdx xs.length y = xs ++ y :: ys := by
  induction xs with
  | nil => rfl
  | cons x xs ih =>
      rw [List.cons_append, List.length_cons, List.insertIdx_succ_cons, ih, List.cons_append]

theorem getElem?_concat_eq_some_iff {xs : List β} {x y : β} {i : Nat} :
    (xs ++ [x])[i]? = some y ↔ xs[i]? = some y ∨ i = xs.length ∧ x = y := by
  rcases Nat.lt_trichotomy i xs.length with hlt | rfl | hgt
  · rw [List.getElem?_append_left hlt]
    exact ⟨.inl, fun h => h.resolve_right fun he => absurd he.1 (Nat.ne_of_lt hlt)⟩
  · simp
  · have hnone : xs[i]? = none := List.getElem?_eq_none (Nat.le_of_lt hgt)
    have hnone' : (xs ++ [x])[i]? = none :=
      List.getElem?_eq_none (by simpa using Nat.succ_le_of_lt hgt)
    simp [hnone, hnone', Nat.ne_of_gt hgt]

/-- Removing by their keys the elements of `ks` from elements with different
keys leaves what was there besides `ks`. -/
theorem perm_filter_key (key : β → Nat) {xs ks rest : List β} (hd : (xs.map key).Nodup)
    (h : xs.Perm (ks ++ rest)) :
    (xs.filter fun x => !(ks.map key).contains (key x)).Perm rest := by
  have hk : (ks.filter fun x => !(ks.map key).contains (key x)) = [] := by
    rw [List.filter_eq_nil_iff]
    intro x hx
    have := List.mem_map_of_mem (f := key) hx
    simpa using this
  have hr : (rest.filter fun x => !(ks.map key).contains (key x)) = rest := by
    rw [List.filter_eq_self]
    intro x hx
    have hdis := (List.nodup_append.1 (by simpa using (h.map key).nodup_iff.1 hd)).2.2
    have : key x ∉ ks.map key := fun hc => hdis _ hc _ (List.mem_map_of_mem hx) rfl
    simpa using this
  have hp := h.filter fun x => !(ks.map key).contains (key x)
  rwa [List.filter_append, hk, hr, List.nil_append] at hp

section Pairs

variable {κ : Type} [BEq κ] [LawfulBEq κ] {pairs : List (κ × β)} {k : κ}

theorem lookup_cons_ite [DecidableEq κ] (a : κ) (v : β) (pairs : List (κ × β)) (k : κ) :
    ((a, v) :: pairs).lookup k = if k = a then some v else pairs.lookup k := by
  rw [List.lookup_cons]
  by_cases hk : k = a
  · rw [if_pos hk, beq_iff_eq.2 hk]
  · rw [if_neg hk, beq_eq_false_iff_ne.2 hk]

theorem lookup_map_val [DecidableEq κ] {γ : Type} (f : κ → β → γ) (pairs : List (κ × β)) (k : κ) :
    (pairs.map fun e => (e.1, f e.1 e.2)).lookup k = (pairs.lookup k).map (f k) := by
  induction pairs with
  | nil => rfl
  | cons e pairs ih =>
      rw [List.map_cons, lookup_cons_ite, lookup_cons_ite, ih]
      split
      · next hk => rw [hk, Option.map_some]
      · rfl

theorem mem_iff_lookup (hd : (pairs.map Prod.fst).Nodup) {v : β} :
    (k, v) ∈ pairs ↔ pairs.lookup k = some v := by
  constructor
  · intro hmem
    obtain ⟨before, after, rfl⟩ := List.append_of_mem hmem
    refine List.lookup_eq_some_iff.2 ⟨before, after, rfl, fun p hp => bne_iff_ne.2 ?_⟩
    rintro rfl
    rw [List.map_append, List.map_cons, List.nodup_append] at hd
    exact hd.2.2 _ (List.mem_map_of_mem hp) _ List.mem_cons_self rfl
  · intro hlookup
    obtain ⟨before, after, rfl, -⟩ := List.lookup_eq_some_iff.1 hlookup
    exact List.mem_append_right before List.mem_cons_self

theorem lookup_filter (hd : (pairs.map Prod.fst).Nodup) (keep : κ × β → Bool) (k : κ) :
    (pairs.filter keep).lookup k = (pairs.lookup k).filter fun v => keep (k, v) := by
  have hkept : ((pairs.filter keep).map Prod.fst).Nodup :=
    (List.filter_sublist.map Prod.fst).nodup hd
  refine Option.ext fun v => ?_
  rw [← mem_iff_lookup hkept, List.mem_filter, mem_iff_lookup hd, Option.filter_eq_some_iff]

end Pairs

theorem forall₂_filterMap {γ : Type} {R : β → γ → Prop} {f : β → Option γ} {xs : List β}
    (h : ∀ x ∈ xs, ∃ y, f x = some y ∧ R x y) : List.Forall₂ R xs (xs.filterMap f) := by
  induction xs with
  | nil => exact .nil
  | cons x xs ih =>
      obtain ⟨y, hy, hxy⟩ := h x List.mem_cons_self
      rw [List.filterMap_cons_some hy]
      exact .cons hxy (ih fun z hz => h z (List.mem_cons_of_mem _ hz))

/-- A list that has the images of some elements in any order has them in the order
in which some rearrangement has the elements. -/
theorem exists_perm_of_perm_map {γ : Type} {f : β → γ} {ys : List γ} {xs : List β}
    (h : ys.Perm (xs.map f)) : ∃ zs : List β, zs.Perm xs ∧ ys = zs.map f := by
  have himage : List.Forall₂ (fun y x => y = f x) (xs.map f) xs := by
    rw [List.forall₂_map_left_iff]
    exact List.forall₂_same.2 fun _ _ => rfl
  obtain ⟨zs, hzs, hperm⟩ := List.perm_comp_forall₂ h himage
  refine ⟨zs, hperm, ?_⟩
  rw [← List.forall₂_eq_eq_eq, List.forall₂_map_right_iff]
  exact hzs

section Sorting

variable {key : β → Nat}

theorem pairwise_mergeSort_key (key : β → Nat) (xs : List β) :
    (xs.mergeSort fun x y => key x ≤ key y).Pairwise fun x y => key x ≤ key y := by
  refine (List.pairwise_mergeSort (fun x y z hxy hyz => ?_) (fun x y => ?_) _).imp of_decide_eq_true
  · exact decide_eq_true (Nat.le_trans (of_decide_eq_true hxy) (of_decide_eq_true hyz))
  · simpa using Nat.le_total (key x) (key y)

/-- Sorting finds the order that there is. -/
theorem mergeSort_key_eq {xs sorted : List β} (hperm : xs.Perm sorted)
    (h : sorted.Pairwise fun x y => key x < key y) :
    (xs.mergeSort fun x y => key x ≤ key y) = sorted := by
  have hdistinct : ∀ x ∈ sorted, ∀ y ∈ sorted, key x = key y → x = y := by
    have hnodup : (sorted.map key).Nodup := List.pairwise_map.2 (h.imp fun hlt => Nat.ne_of_lt hlt)
    exact fun x hx y hy => List.inj_on_of_nodup_map hnodup hx hy
  have hsame : (xs.mergeSort fun x y => key x ≤ key y).Perm sorted :=
    (List.mergeSort_perm _ _).trans hperm
  refine hsame.eq_of_pairwise (fun x y hx hy hle hge => ?_) (pairwise_mergeSort_key key xs)
    (h.imp Nat.le_of_lt)
  exact hdistinct x (hsame.mem_iff.1 hx) y hy (Nat.le_antisymm hle hge)

end Sorting

section FirstSight

variable [BEq β] [LawfulBEq β]

theorem eraseDups_concat (xs : List β) (x : β) :
    (xs ++ [x]).eraseDups = if x ∈ xs then xs.eraseDups else xs.eraseDups ++ [x] := by
  rw [List.eraseDups_append]
  split
  · next hmem => simp [List.removeAll, hmem]
  · next hmem => simp [List.removeAll, hmem, List.eraseDups_cons]

theorem nodup_eraseDups (xs : List β) : xs.eraseDups.Nodup := by
  induction xs using List.reverseRecOn with
  | nil => exact List.nodup_nil
  | append_singleton xs x ih =>
      rw [eraseDups_concat]
      split
      · exact ih
      · next hmem =>
        rw [← List.concat_eq_append]
        exact (List.nodup_concat _ _).2 ⟨mt List.mem_eraseDups.1 hmem, ih⟩

end FirstSight

/-- Changing an element by its place is changing it by its key. -/
theorem modify_eq_map {κ : Type} [DecidableEq κ] {key : β → κ} {xs : List β} {i : Nat} {k : κ}
    (hd : (xs.map key).Nodup) (h : (xs.map key)[i]? = some k) (f : β → β) :
    xs.modify i f = xs.map fun x => if key x = k then f x else x := by
  induction xs generalizing i with
  | nil => exact List.modify_nil f i
  | cons x xs ih =>
      obtain ⟨hnot, hd⟩ := List.nodup_cons.1 hd
      cases i with
      | zero =>
          obtain rfl : key x = k := Option.some.inj h
          have hrest : ∀ y ∈ xs, key y ≠ key x := fun y hy heq =>
            hnot (heq ▸ List.mem_map_of_mem hy)
          rw [List.modify_zero_cons, List.map_cons, if_pos rfl]
          exact congrArg _ ((List.map_congr_left fun y hy => if_neg (hrest y hy)).trans
            (List.map_id xs)).symm
      | succ i =>
          rw [List.map_cons, List.getElem?_cons_succ] at h
          have hx : key x ≠ k := fun heq => hnot (heq ▸ List.mem_of_getElem? h)
          rw [List.modify_succ_cons, List.map_cons, if_neg hx, ih hd h]

theorem forall_mem_modify {P : β → Prop} {xs : List β} (h : ∀ x ∈ xs, P x) {f : β → β}
    (hf : ∀ x, P x → P (f x)) (i : Nat) : ∀ x ∈ xs.modify i f, P x := by
  intro x hx
  obtain ⟨j, hj⟩ := List.mem_iff_getElem?.1 hx
  rw [List.getElem?_modify] at hj
  obtain ⟨y, hy, rfl⟩ := Option.map_eq_some_iff.1 hj
  have hPy := h y (List.mem_of_getElem? hy)
  split
  · exact hf y hPy
  · exact hPy

theorem forall_mem_set {P : β → Prop} {xs : List β} (h : ∀ x ∈ xs, P x) {y : β} (hy : P y)
    (i : Nat) : ∀ x ∈ xs.set i y, P x := by
  intro x hx
  rcases List.mem_or_eq_of_mem_set hx with hx | rfl
  · exact h x hx
  · exact hy

theorem filterMap_concat {γ : Type} (f : β → Option γ) (xs : List β) (x : β) :
    (xs ++ [x]).filterMap f = xs.filterMap f ++ (f x).toList := by
  rw [List.filterMap_append]
  cases h : f x <;> simp [h]

/-- What is put behind a list goes to the last of its parts. -/
theorem exists_splitOnP_concat {p : β → Bool} (xs : List β) {x : β} (h : p x = false) :
    ∃ parts last, xs.splitOnP p = parts ++ [last] ∧
      (xs ++ [x]).splitOnP p = parts ++ [last ++ [x]] := by
  induction xs with
  | nil => exact ⟨[], [], rfl, List.splitOnP_eq_singleton (List.forall_mem_singleton.2 h)⟩
  | cons y xs ih =>
      obtain ⟨parts, last, hxs, hmore⟩ := ih
      rw [List.cons_append, List.splitOnP_cons_eq_if_modifyHead,
        List.splitOnP_cons_eq_if_modifyHead, hxs, hmore]
      split
      · exact ⟨[] :: parts, last, rfl, rfl⟩
      · cases parts with
        | nil => exact ⟨[], y :: last, rfl, rfl⟩
        | cons part parts => exact ⟨(y :: part) :: parts, last, rfl, rfl⟩

/-- Two lists agree up to the first place of an element and behind it, if they agree at
all. -/
theorem append_cons_inj_of_not_mem {xs ys us vs : List β} {a : β} (hx : a ∉ xs) (hy : a ∉ ys) :
    xs ++ a :: us = ys ++ a :: vs ↔ xs = ys ∧ us = vs := by
  refine ⟨fun h => ?_, fun h => by rw [h.1, h.2]⟩
  induction xs generalizing ys with
  | nil =>
      cases ys with
      | nil => exact ⟨rfl, (List.cons.inj h).2⟩
      | cons y ys => exact absurd ((List.cons.inj h).1 ▸ List.mem_cons_self) hy
  | cons x xs ih =>
      cases ys with
      | nil => exact absurd ((List.cons.inj h).1 ▸ List.mem_cons_self) hx
      | cons y ys =>
          obtain ⟨rfl, hrest⟩ := List.cons.inj h
          obtain ⟨rfl, hend⟩ := ih (List.not_mem_of_not_mem_cons hx)
            (List.not_mem_of_not_mem_cons hy) hrest
          exact ⟨rfl, hend⟩

end MetricAgent
