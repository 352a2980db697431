import MetricAgent.Metric.Tags
import MetricAgent.Proofs.Lists
import MetricAgent.Proofs.Text.SortedPairs

/-!
# Sorted tags as a map

The search by halving finds every key of a sorted list, and where it finds none
it ends between the smaller and the larger keys. So a sorted list falls apart
at any key (`Split`), and what reads or changes one tag is read off from the
parts: sorted tags are a map from keys to values, and the map determines them.
-/

namespace MetricAgent
namespace Tags

open SortedPairs (Sorted)

variable {key k value : String} {tags before after : Tags} {old : Option String}

theorem sorted_split (h : Sorted tags) {i : Nat} (hi : i < tags.length) :
    (∀ t ∈ tags.take i, t.1 < tags[i].1) ∧ ∀ t ∈ tags.drop (i + 1), tags[i].1 < t.1 := by
  have hsplit : tags = tags.take i ++ tags[i] :: tags.drop (i + 1) := by
    rw [← List.drop_eq_getElem_cons hi, List.take_append_drop]
  obtain ⟨-, hafter, hbefore⟩ := List.pairwise_append.1 (hsplit ▸ h)
  exact ⟨fun t ht => hbefore t ht _ List.mem_cons_self, fun t => List.rel_of_pairwise_cons hafter⟩

/-- What is known of a key once the search is down to `size` tags from `base`
on. -/
structure Narrowed (key : String) (tags : Tags) (base size : Nat) : Prop where
  le : base + size ≤ tags.length
  below : ∀ t ∈ tags.take base, t.1 < key
  above : ∀ t ∈ tags.drop (base + size), key < t.1

theorem narrowed_all (key : String) (tags : Tags) : Narrowed key tags 0 tags.length where
  le := Nat.le_of_eq (Nat.zero_add _)
  below := by simp
  above := by simp

theorem Narrowed.left {base size half : Nat} (hn : Narrowed key tags base size) (h : Sorted tags)
    (hhalf : half + half ≤ size) (hmid : base + half < tags.length)
    (hlt : key < tags[base + half].1) : Narrowed key tags base (size - half) where
  le := by have := hn.le; omega
  below := hn.below
  above := by
    intro t ht
    have hmem : t ∈ tags.drop (base + half) := List.drop_subset_drop_left _ (by omega) ht
    rw [List.drop_eq_getElem_cons hmid, List.mem_cons] at hmem
    rcases hmem with rfl | hmem
    · exact hlt
    · exact String.lt_trans hlt ((sorted_split h hmid).2 t hmem)

theorem Narrowed.right {base size half : Nat} (hn : Narrowed key tags base size) (h : Sorted tags)
    (hhalf : half ≤ size) (hmid : base + half < tags.length)
    (hle : ¬ key < tags[base + half].1) : Narrowed key tags (base + half) (size - half) where
  le := by have := hn.le; omega
  below t ht := Std.lt_of_lt_of_le ((sorted_split h hmid).1 t ht) (String.not_lt.1 hle)
  above := by
    rw [Nat.add_assoc, Nat.add_sub_cancel' hhalf]
    exact hn.above

theorem narrowed_narrow (h : Sorted tags) {base size : Nat} (hn : Narrowed key tags base size)
    (hpos : 0 < size) : Narrowed key tags (narrow key tags base size) 1 := by
  induction base, size using narrow.induct key tags with
  | case1 base size hsize =>
      unfold narrow
      rw [dif_pos hsize]
      exact (show size = 1 by omega) ▸ hn
  | case2 base size hsize half above ih =>
      unfold narrow
      rw [dif_neg hsize]
      have hhalf : half + half ≤ size ∧ half < size := by omega
      have hmid : base + half < tags.length := by have := hn.le; omega
      refine ih ?_ (by omega)
      have habove : above = decide (key < tags[base + half].1) := by
        simp only [above, List.getElem?_eq_getElem hmid, Option.all_some]
      by_cases hlt : key < tags[base + half].1
      · rw [habove, decide_eq_true hlt, dif_pos rfl]
        exact hn.left h hhalf.1 hmid hlt
      · rw [habove, decide_eq_false hlt, dif_neg Bool.false_ne_true]
        exact hn.right h (Nat.le_of_lt hhalf.2) hmid hlt

/-- A list that falls apart at a key into the smaller keys, the value of the
key if it has one, and the larger keys, and the place that the search finds. -/
structure Split (key : String) (tags before : Tags) (old : Option String) (after : Tags) :
    Prop where
  tags_eq : tags = before ++ (old.toList.map (Prod.mk key) ++ after)
  before_lt : ∀ t ∈ before, t.1 < key
  lt_after : ∀ t ∈ after, key < t.1
  place_eq : place key tags =
    if old.isSome then .found before.length else .absent before.length

theorem exists_split (h : Sorted tags) (key : String) :
    ∃ before old after, Split key tags before old after := by
  by_cases hnil : tags = []
  · exact ⟨[], none, [], hnil, by simp, by simp, by simp [place, hnil]⟩
  have hn := narrowed_narrow h (narrowed_all key tags) (List.length_pos_iff.2 hnil)
  -- One tag is left: its key is smaller, equal or larger.
  generalize hi : narrow key tags 0 tags.length = i at hn
  have hlt : i < tags.length := hn.le
  have htake : (tags.take i).length = i := List.length_take_of_le (Nat.le_of_lt hlt)
  have hsplit : tags = tags.take i ++ tags[i] :: tags.drop (i + 1) := by
    rw [← List.drop_eq_getElem_cons hlt, List.take_append_drop]
  rcases Std.lt_trichotomy tags[i].1 key with hkey | hkey | hkey
  · refine ⟨tags.take (i + 1), none, tags.drop (i + 1), (List.take_append_drop _ _).symm, ?_,
      hn.above, ?_⟩
    · intro t ht
      rw [← List.take_append_getElem hlt, List.mem_append, List.mem_singleton] at ht
      rcases ht with ht | rfl
      · exact hn.below t ht
      · exact hkey
    · simp only [place, hi, List.getElem?_eq_getElem hlt, if_neg (Std.ne_of_lt hkey), if_pos hkey,
        List.length_take_of_le hlt, Option.isSome_none, Bool.false_eq_true, if_false]
  · refine ⟨tags.take i, some tags[i].2, tags.drop (i + 1), ?_, hn.below, hn.above, ?_⟩
    · rw [← hkey]
      exact hsplit
    · simp only [place, hi, List.getElem?_eq_getElem hlt, if_pos hkey, htake, Option.isSome_some,
        if_true]
  · refine ⟨tags.take i, none, tags.drop i, (List.take_append_drop _ _).symm, hn.below, ?_, ?_⟩
    · intro t ht
      rw [List.drop_eq_getElem_cons hlt, List.mem_cons] at ht
      rcases ht with rfl | ht
      · exact hkey
      · exact hn.above t ht
    · simp only [place, hi, List.getElem?_eq_getElem hlt, if_neg (Std.ne_of_lt hkey).symm,
        if_neg (String.lt_asymm hkey), htake, Option.isSome_none, Bool.false_eq_true, if_false]

theorem Split.ne_of_mem (hs : Split key tags before old after) {t : String × String}
    (ht : t ∈ before ++ after) : key ≠ t.1 := by
  rcases List.mem_append.1 ht with ht | ht
  · exact (Std.ne_of_lt (hs.before_lt t ht)).symm
  · exact Std.ne_of_lt (hs.lt_after t ht)

/-- Whatever value stands between the two parts. -/
theorem Split.lookup_parts (hs : Split key tags before old after) (new : Option String)
    (k : String) :
    (before ++ (new.toList.map (Prod.mk key) ++ after)).lookup k =
      if k = key then new else (before ++ after).lookup k := by
  by_cases hk : k = key
  · subst hk
    have hnone := List.lookup_eq_none_iff.2 fun t ht => bne_iff_ne.2 (hs.ne_of_mem ht)
    rw [List.lookup_append, Option.or_eq_none_iff] at hnone
    rw [if_pos rfl, List.lookup_append, List.lookup_append, hnone.1, hnone.2]
    cases new <;> simp
  · rw [if_neg hk, List.lookup_append, List.lookup_append, List.lookup_append]
    have hnew : (new.toList.map (Prod.mk key)).lookup k = none := by
      refine List.lookup_eq_none_iff.2 fun t ht => bne_iff_ne.2 ?_
      obtain ⟨v, -, rfl⟩ := List.mem_map.1 ht
      exact hk
    rw [hnew, Option.none_or]

theorem Split.lookup (hs : Split key tags before old after) (k : String) :
    tags.lookup k = if k = key then old else (before ++ after).lookup k := by
  rw [← hs.lookup_parts old k, ← hs.tags_eq]

theorem Split.get?_eq (hs : Split key tags before old after) : get? key tags = old := by
  cases old with
  | none => simp [get?, hs.place_eq]
  | some v =>
      simp only [get?, hs.place_eq, Option.isSome_some, if_true]
      rw [hs.tags_eq]
      simp

theorem Split.has_eq (hs : Split key tags before old after) : has key tags = old.isSome := by
  cases old <;> simp [has, hs.place_eq]

theorem Split.insert_eq (hs : Split key tags before old after) (value : String) :
    insert key value tags = before ++ (key, value) :: after := by
  cases old with
  | none =>
      simp only [insert, hs.place_eq, Option.isSome_none, Bool.false_eq_true, if_false]
      rw [hs.tags_eq]
      simp only [Option.toList_none, List.map_nil, List.nil_append]
      exact insertIdx_length_append before after _
  | some v =>
      simp only [insert, hs.place_eq, Option.isSome_some, if_true]
      rw [hs.tags_eq]
      simp [List.modify_eq_take_cons_drop]

theorem Split.erase_eq (hs : Split key tags before old after) :
    erase key tags = before ++ after := by
  cases old with
  | none =>
      simp only [erase, hs.place_eq, Option.isSome_none, Bool.false_eq_true, if_false]
      exact hs.tags_eq
  | some v =>
      simp only [erase, hs.place_eq, Option.isSome_some, if_true]
      rw [hs.tags_eq]
      simp [List.eraseIdx_append_of_length_le]

theorem Split.sorted_parts (hs : Split key tags before old after) (h : Sorted tags) :
    Sorted (before ++ after) := by
  refine List.Pairwise.sublist ?_ h
  rw [hs.tags_eq]
  exact (List.Sublist.refl before).append (List.sublist_append_right _ after)

theorem sorted_insert (h : Sorted tags) (key value : String) : Sorted (insert key value tags) := by
  obtain ⟨before, old, after, hs⟩ := exists_split h key
  rw [hs.insert_eq]
  obtain ⟨hbefore, hafter, hcross⟩ := List.pairwise_append.1 (hs.sorted_parts h)
  refine List.pairwise_append.2 ⟨hbefore, List.pairwise_cons.2 ⟨hs.lt_after, hafter⟩, ?_⟩
  intro a ha b hb
  rcases List.mem_cons.1 hb with rfl | hb
  · exact hs.before_lt a ha
  · exact hcross a ha b hb

theorem sorted_erase (h : Sorted tags) (key : String) : Sorted (erase key tags) := by
  obtain ⟨before, old, after, hs⟩ := exists_split h key
  rw [hs.erase_eq]
  exact hs.sorted_parts h

theorem get?_eq_lookup (h : Sorted tags) (key : String) : get? key tags = tags.lookup key := by
  obtain ⟨before, old, after, hs⟩ := exists_split h key
  rw [hs.get?_eq, hs.lookup, if_pos rfl]

theorem has_eq_isSome (h : Sorted tags) (key : String) : has key tags = (get? key tags).isSome := by
  obtain ⟨before, old, after, hs⟩ := exists_split h key
  rw [hs.has_eq, hs.get?_eq]

theorem get?_insert (h : Sorted tags) (key value k : String) :
    get? k (insert key value tags) = if k = key then some value else get? k tags := by
  obtain ⟨before, old, after, hs⟩ := exists_split h key
  rw [get?_eq_lookup (sorted_insert h key value), get?_eq_lookup h, hs.insert_eq]
  refine (hs.lookup_parts (some value) k).trans ?_
  rw [hs.lookup]
  split <;> rfl

theorem get?_erase (h : Sorted tags) (key k : String) :
    get? k (erase key tags) = if k = key then none else get? k tags := by
  obtain ⟨before, old, after, hs⟩ := exists_split h key
  rw [get?_eq_lookup (sorted_erase h key), get?_eq_lookup h, hs.erase_eq]
  refine (hs.lookup_parts none k).trans ?_
  rw [hs.lookup]
  split <;> rfl

/-- A key that has no value has no tag to remove. -/
theorem erase_of_not_has (hs : has key tags = false) : erase key tags = tags := by
  unfold has at hs
  unfold erase
  cases hplace : place key tags with
  | found i => simp [hplace] at hs
  | absent i => rfl

theorem nodup_keys (h : Sorted tags) : (tags.map Prod.fst).Nodup :=
  List.pairwise_map.2 (h.imp Std.ne_of_lt)

theorem get?_filter (h : Sorted tags) (keep : String × String → Bool) (k : String) :
    get? k (tags.filter keep) = (get? k tags).filter fun v => keep (k, v) := by
  rw [get?_eq_lookup (List.Pairwise.filter keep h), get?_eq_lookup h,
    lookup_filter (nodup_keys h)]

theorem eq_of_get? {other : Tags} (h : Sorted tags) (hother : Sorted other)
    (heq : ∀ k, get? k tags = get? k other) : tags = other := by
  have hmem : ∀ t, t ∈ tags ↔ t ∈ other := by
    rintro ⟨k, v⟩
    rw [mem_iff_lookup (nodup_keys h), mem_iff_lookup (nodup_keys hother), ← get?_eq_lookup h,
      ← get?_eq_lookup hother, heq]
  have hperm : tags.Perm other := (List.perm_ext_iff_of_nodup (nodup_keys h).of_map
    (nodup_keys hother).of_map).2 hmem
  exact hperm.eq_of_pairwise (fun a b _ _ hab hba => absurd hba (String.lt_asymm hab)) h hother

/-! ### Tags put in one after the other -/

theorem sortedInsert_append (h : ∀ t ∈ before, t.1 < key) (value : String) (after : Tags) :
    SortedPairs.insert key value (before ++ after) =
      before ++ SortedPairs.insert key value after := by
  induction before with
  | nil => rfl
  | cons t rest ih =>
      obtain ⟨k, v⟩ := t
      obtain ⟨hlt, hrest⟩ := List.forall_mem_cons.1 h
      rw [List.cons_append, List.cons_append, ← ih hrest]
      exact (if_neg (Std.ne_of_lt hlt).symm).trans (if_neg (String.lt_asymm hlt))

/-- Searching by halving puts a tag where walking along the list does. -/
theorem insert_eq_sortedInsert (h : Sorted tags) (key value : String) :
    insert key value tags = SortedPairs.insert key value tags := by
  obtain ⟨before, old, after, hs⟩ := exists_split h key
  rw [hs.insert_eq, hs.tags_eq, sortedInsert_append hs.before_lt]
  refine congrArg _ ?_
  cases old with
  | some v => exact (if_pos rfl).symm
  | none =>
      cases after with
      | nil => rfl
      | cons t rest =>
          have hlt : key < t.1 := hs.lt_after t List.mem_cons_self
          exact ((if_neg (Std.ne_of_lt hlt)).trans (if_pos hlt)).symm

theorem sorted_insertAll (h : Sorted tags) (pairs : List (String × String)) :
    Sorted (insertAll pairs tags) := by
  induction pairs generalizing tags with
  | nil => exact h
  | cons p pairs ih => exact ih (sorted_insert h p.1 p.2)

theorem insertAll_eq_sortedInsertAll (h : Sorted tags) (pairs : List (String × String)) :
    insertAll pairs tags = SortedPairs.insertAll pairs tags := by
  induction pairs generalizing tags with
  | nil => rfl
  | cons p pairs ih =>
      rw [insertAll_cons, ih (sorted_insert h p.1 p.2), insert_eq_sortedInsert h]
      rfl

/-- Tags that are sorted already are put in as they are. -/
theorem insertAll_of_sorted {pairs : Tags} (h : Sorted (tags ++ pairs)) :
    insertAll pairs tags = tags ++ pairs := by
  induction pairs generalizing tags with
  | nil => exact (List.append_nil tags).symm
  | cons p pairs ih =>
      obtain ⟨htags, -, hlt⟩ := List.pairwise_append.1 h
      have hnew : ∀ t ∈ tags, t.1 < p.1 := fun t ht => hlt t ht p List.mem_cons_self
      have hinsert : insert p.1 p.2 tags = tags ++ [p] := by
        rw [insert_eq_sortedInsert htags]
        refine Eq.trans ?_ (sortedInsert_append hnew p.2 [])
        rw [List.append_nil]
      have happend : tags ++ p :: pairs = tags ++ [p] ++ pairs := by simp
      rw [insertAll_cons, hinsert, happend]
      exact ih (happend ▸ h)

/-- Tags that are put in only where there are none yet come after those that are
there, the first of each key before the others. -/
theorem get?_insertMissing (h : Sorted tags) (pairs : List (String × String)) (key : String) :
    get? key (insertMissing pairs tags) = (get? key tags).or (pairs.lookup key) := by
  induction pairs generalizing tags with
  | nil => exact Option.or_none.symm
  | cons p pairs ih =>
      change get? key (insertMissing pairs (if has p.1 tags then tags else insert p.1 p.2 tags)) = _
      have hlookup : (p :: pairs).lookup key = if key = p.1 then some p.2 else pairs.lookup key :=
        lookup_cons_ite p.1 p.2 pairs key
      rw [hlookup]
      cases hhas : has p.1 tags with
      | true =>
          rw [if_pos rfl, ih h]
          split
          · next hkey =>
            -- The tag is there already, whatever comes after it.
            rw [has_eq_isSome h, ← hkey, Option.isSome_iff_exists] at hhas
            obtain ⟨v, hv⟩ := hhas
            rw [hv, Option.some_or, Option.some_or]
          · rfl
      | false =>
          rw [if_neg Bool.false_ne_true, ih (sorted_insert h p.1 p.2), get?_insert h]
          split
          · next hkey =>
            rw [has_eq_isSome h, ← hkey, Option.isSome_eq_false_iff,
              Option.isNone_iff_eq_none] at hhas
            rw [hhas, Option.none_or, Option.some_or]
          · rfl

theorem get?_ofList (pairs : List (String × String)) (key : String) :
    get? key (SortedPairs.ofList pairs) = pairs.reverse.lookup key := by
  induction pairs using List.reverseRecOn with
  | nil => rfl
  | append_singleton pairs p ih =>
      have hlast : SortedPairs.ofList (pairs ++ [p]) =
          SortedPairs.insert p.1 p.2 (SortedPairs.ofList pairs) := List.foldl_append
      have hsorted := SortedPairs.sorted_ofList pairs
      rw [hlast, ← insert_eq_sortedInsert hsorted, get?_insert hsorted, ih, List.reverse_append]
      exact (lookup_cons_ite p.1 p.2 pairs.reverse key).symm

theorem lookup_reverse (h : Sorted tags) (key : String) :
    tags.reverse.lookup key = get? key tags := by
  rw [← get?_ofList, SortedPairs.ofList_eq_of_perm (.refl tags) h]

end Tags
end MetricAgent
