import MetricAgent.Metric.Fields
import MetricAgent.Proofs.Lists

/-!
# Fields as a map with an order

A field list is a map from keys to values together with the order in which its
keys first came. Setting a value changes the map at one key, and the order only
by a key that is new.
-/

namespace MetricAgent
namespace Fields

variable {key k : String} {value : FieldValue} {fields : Fields}

theorem get?_insert (key : String) (value : FieldValue) (fields : Fields) (k : String) :
    get? k (insert key value fields) = if k = key then some value else get? k fields := by
  unfold get?
  induction fields with
  | nil => rw [insert_nil, lookup_cons_ite]
  | cons f rest ih =>
      obtain ⟨k', v⟩ := f
      unfold insert
      by_cases hkey : key = k'
      · subst hkey
        rw [if_pos rfl, lookup_cons_ite, lookup_cons_ite]
        split <;> rfl
      · rw [if_neg hkey, lookup_cons_ite, lookup_cons_ite, ih]
        by_cases hk : k = k'
        · subst hk
          rw [if_pos rfl, if_pos rfl, if_neg (Ne.symm hkey)]
        · rw [if_neg hk, if_neg hk]

theorem keys_insert (key : String) (value : FieldValue) (fields : Fields) :
    (insert key value fields).map Prod.fst =
      if key ∈ fields.map Prod.fst then fields.map Prod.fst else fields.map Prod.fst ++ [key] := by
  induction fields with
  | nil => rfl
  | cons f rest ih =>
      obtain ⟨k', v⟩ := f
      unfold insert
      by_cases hkey : key = k'
      · subst hkey
        rw [if_pos rfl, List.map_cons, List.map_cons, if_pos List.mem_cons_self]
      · rw [if_neg hkey, List.map_cons, ih, List.map_cons]
        by_cases hmem : key ∈ rest.map Prod.fst
        · rw [if_pos hmem, if_pos (List.mem_cons_of_mem _ hmem)]
        · rw [if_neg hmem, if_neg (not_or.2 ⟨hkey, hmem⟩ ∘ List.mem_cons.1),
            List.cons_append]

theorem distinct_insert (h : Distinct fields) (key : String) (value : FieldValue) :
    Distinct (insert key value fields) := by
  unfold Distinct
  rw [keys_insert]
  split
  · exact h
  · next hmem =>
      rw [← List.concat_eq_append]
      exact (List.nodup_concat _ _).2 ⟨hmem, h⟩

theorem distinct_filter (h : Distinct fields) (keep : String × FieldValue → Bool) :
    Distinct (fields.filter keep) :=
  (List.filter_sublist.map Prod.fst).nodup h

theorem distinct_map_keys (h : Distinct fields) {f : String → String} (hf : f.Injective) :
    Distinct (fields.map fun p => (f p.1, p.2)) := by
  have hkeys : (fields.map fun p => (f p.1, p.2)).map Prod.fst = (fields.map Prod.fst).map f := by
    rw [List.map_map, List.map_map]
    rfl
  unfold Distinct
  rw [hkeys]
  exact h.map hf

theorem keys_filter (h : Distinct fields) (keep : String × FieldValue → Bool) :
    (fields.filter keep).map Prod.fst = (fields.map Prod.fst).filter fun k =>
      (get? k fields).any fun v => keep (k, v) := by
  rw [List.filter_map]
  refine congrArg _ (List.filter_congr fun f hf => ?_)
  have hlookup : get? f.1 fields = some f.2 := (mem_iff_lookup h).1 hf
  rw [Function.comp_apply, hlookup, Option.any_some]

theorem insert_of_not_mem (h : key ∉ fields.map Prod.fst) :
    insert key value fields = fields ++ [(key, value)] := by
  induction fields with
  | nil => rfl
  | cons f rest ih =>
      obtain ⟨hkey, hrest⟩ := not_or.1 (mt List.mem_cons.2 h)
      unfold insert
      rw [if_neg hkey, ih hrest, List.cons_append]

/-- Keys that differ stay in the order in which they come. -/
theorem insertAll_of_distinct {pairs : List (String × FieldValue)}
    (h : Distinct (fields ++ pairs)) : insertAll pairs fields = fields ++ pairs := by
  induction pairs generalizing fields with
  | nil => exact (List.append_nil fields).symm
  | cons p pairs ih =>
      have hnew : p.1 ∉ fields.map Prod.fst := by
        unfold Distinct at h
        rw [List.map_append, List.map_cons, List.nodup_append] at h
        exact fun hmem => h.2.2 _ hmem _ List.mem_cons_self rfl
      have happend : fields ++ p :: pairs = fields ++ [p] ++ pairs := by simp
      rw [insertAll_cons, insert_of_not_mem hnew, happend]
      exact ih (happend ▸ h)

/-- Distinct fields are read off from their keys and the map. -/
theorem eq_filterMap_keys (h : Distinct fields) :
    fields = (fields.map Prod.fst).filterMap fun k => (get? k fields).map (Prod.mk k) := by
  have hfield : ∀ f ∈ fields, (get? f.1 fields).map (Prod.mk f.1) = some f := by
    intro f hf
    have hlookup : get? f.1 fields = some f.2 := (mem_iff_lookup h).1 hf
    rw [hlookup, Option.map_some]
  rw [List.filterMap_map]
  exact (List.filterMap_some.symm.trans (List.filterMap_congr fun f hf => (hfield f hf).symm))

/-! ### The fields that any list of pairs stands for -/

/-- The value last written for each key, in the order in which the keys came. -/
def latest (pairs : List (String × FieldValue)) : Fields :=
  (pairs.map Prod.fst).eraseDups.filterMap fun k => (pairs.reverse.lookup k).map (Prod.mk k)

theorem insertAll_append (pairs others : List (String × FieldValue)) (fields : Fields) :
    insertAll (pairs ++ others) fields = insertAll others (insertAll pairs fields) :=
  List.foldl_append

theorem distinct_ofList (pairs : List (String × FieldValue)) : Distinct (ofList pairs) := by
  unfold ofList
  induction pairs using List.reverseRecOn with
  | nil => exact distinct_nil
  | append_singleton pairs p ih =>
      rw [insertAll_append]
      exact distinct_insert ih p.1 p.2

theorem keys_ofList (pairs : List (String × FieldValue)) :
    (ofList pairs).map Prod.fst = (pairs.map Prod.fst).eraseDups := by
  unfold ofList
  induction pairs using List.reverseRecOn with
  | nil => rfl
  | append_singleton pairs p ih =>
      rw [insertAll_append, List.map_append, List.map_singleton, eraseDups_concat]
      refine (keys_insert p.1 p.2 _).trans ?_
      rw [ih]
      exact if_congr List.mem_eraseDups rfl rfl

theorem get?_ofList (pairs : List (String × FieldValue)) (k : String) :
    get? k (ofList pairs) = pairs.reverse.lookup k := by
  unfold ofList
  induction pairs using List.reverseRecOn with
  | nil => rfl
  | append_singleton pairs p ih =>
      rw [insertAll_append, List.reverse_append, List.reverse_singleton, List.singleton_append]
      refine (get?_insert p.1 p.2 _ k).trans ?_
      rw [ih]
      exact (lookup_cons_ite p.1 p.2 pairs.reverse k).symm

theorem ofList_eq_latest (pairs : List (String × FieldValue)) : ofList pairs = latest pairs := by
  rw [eq_filterMap_keys (distinct_ofList pairs), keys_ofList]
  exact List.filterMap_congr fun k _ => by rw [get?_ofList]

end Fields
end MetricAgent
