import MetricAgent.Proofs.Filter.Selection
import MetricAgent.Proofs.Metric.Lines

/-!
# Renamed tags

Renames are applied one after the other, in the order of the old keys. A value
travels along with its key, so it may be moved again by a rename that comes
later (`Filter.exists_of_tag?_foldl`). Nothing is moved twice exactly if no new
key is the old key of a rename further on (`Chainless`), and then every tag is
found under the key that the renames say (`Filter.renamed_once_iff`).
-/

namespace MetricAgent
namespace Filter

open SortedPairs (Sorted)

/-- Where a change takes what stands under a key. -/
def travel (k : String) (change : String × String) : String :=
  if k = change.1 then change.2 else k

/-- Where changes take what stands under a key, if nothing replaces it. -/
def journey (changes : List (String × String)) (k : String) : String := changes.foldl travel k

/-- No key that a rename leads to is the old key of one that comes later, unless
that one keeps it. -/
def Chainless (renames : List (String × String)) : Prop :=
  ∀ a b d, (a, b) ∈ renames → (b, d) ∈ renames → a < b → d = b

/-- Each tag is renamed once, at most. -/
structure RenamedOnce (renames : List (String × String)) (before after : Metric) : Prop where
  /-- A value stands where it stood, under a key that is not renamed, or it comes
  from a key that is renamed to this one. -/
  origin : ∀ k v, after.tag? k = some v →
    (before.tag? k = some v ∧ ∀ d, (k, d) ∉ renames) ∨
      ∃ a, (a, k) ∈ renames ∧ before.tag? a = some v
  /-- A value arrives under a new key that no other rename mentions. -/
  arrival : ∀ k d v, (k, d) ∈ renames → (∀ r ∈ renames, r ≠ (k, d) → r.1 ≠ d ∧ r.2 ≠ d) →
    before.tag? k = some v → after.tag? d = some v

variable {m : Metric} {changes renames : List (String × String)} {k v : String}

theorem journey_cons (change : String × String) (changes : List (String × String))
    (k : String) : journey (change :: changes) k = journey changes (travel k change) := rfl

theorem journey_append (changes others : List (String × String)) (k : String) :
    journey (changes ++ others) k = journey others (journey changes k) :=
  List.foldl_append

/-! ### One change after the other -/

theorem renameTag_of_none {change : String × String} (hnone : m.tag? change.1 = none) :
    renameTag m change = m := by
  rw [renameTag, hnone]

theorem tag?_renameTag_of_some (h : Sorted m.tags) {change : String × String} {value : String}
    (hvalue : m.tag? change.1 = some value) (k : String) :
    (renameTag m change).tag? k =
      if k = change.2 then some value else if k = change.1 then none else m.tag? k := by
  rw [renameTag, hvalue]
  refine (Tags.get?_insert (Tags.sorted_erase h change.1) change.2 value k).trans ?_
  rw [Tags.get?_erase h]
  rfl

theorem exists_of_tag?_renameTag (h : Sorted m.tags) {change : String × String}
    (hk : (renameTag m change).tag? k = some v) :
    ∃ a, m.tag? a = some v ∧ travel a change = k := by
  cases hvalue : m.tag? change.1 with
  | none =>
      rw [renameTag_of_none hvalue] at hk
      refine ⟨k, hk, if_neg ?_⟩
      rintro rfl
      rw [hvalue] at hk
      cases hk
  | some value =>
      rw [tag?_renameTag_of_some h hvalue] at hk
      split at hk
      · next hnew =>
        cases hk
        exact ⟨change.1, hvalue, (if_pos rfl).trans hnew.symm⟩
      · split at hk
        · cases hk
        · next hold => exact ⟨k, hk, if_neg hold⟩

/-- A change that does not mention a key leaves its value. -/
theorem tag?_renameTag_of_ne (h : Sorted m.tags) {change : String × String}
    (hold : change.1 ≠ k) (hnew : change.2 ≠ k) : (renameTag m change).tag? k = m.tag? k := by
  cases hvalue : m.tag? change.1 with
  | none => rw [renameTag_of_none hvalue]
  | some value => rw [tag?_renameTag_of_some h hvalue, if_neg hnew.symm, if_neg hold.symm]

/-- A value that is found after changes has travelled there. -/
theorem exists_of_tag?_foldl (h : Sorted m.tags)
    (hk : (changes.foldl renameTag m).tag? k = some v) :
    ∃ a, m.tag? a = some v ∧ journey changes a = k := by
  induction changes generalizing m with
  | nil => exact ⟨k, hk, rfl⟩
  | cons change changes ih =>
      obtain ⟨b, hb, hjourney⟩ := ih (sorted_renameTag h change) hk
      obtain ⟨a, ha, rfl⟩ := exists_of_tag?_renameTag h hb
      exact ⟨a, ha, hjourney⟩

theorem sorted_foldl_renameTag (h : Sorted m.tags) (changes : List (String × String)) :
    Sorted (changes.foldl renameTag m).tags :=
  List.foldlRecOn (motive := fun n : Metric => Sorted n.tags) changes renameTag h
    fun _ hn change _ => sorted_renameTag hn change

theorem tag?_foldl_of_untouched (h : Sorted m.tags)
    (hk : ∀ r ∈ changes, r.1 ≠ k ∧ r.2 ≠ k) :
    (changes.foldl renameTag m).tag? k = m.tag? k := by
  induction changes generalizing m with
  | nil => rfl
  | cons change changes ih =>
      obtain ⟨⟨hold, hnew⟩, hrest⟩ := List.forall_mem_cons.1 hk
      rw [List.foldl_cons, ih (sorted_renameTag h change) hrest, tag?_renameTag_of_ne h hold hnew]

/-! ### Renames without a chain -/

theorem journey_of_kept (hk : ∀ r ∈ changes, r.1 = k → r.2 = k) : journey changes k = k := by
  induction changes with
  | nil => rfl
  | cons change changes ih =>
      obtain ⟨hchange, hrest⟩ := List.forall_mem_cons.1 hk
      have htravel : travel k change = k := by
        unfold travel
        split
        · next hold => exact hchange hold.symm
        · rfl
      rw [journey_cons, htravel, ih hrest]

/-- What comes before and after a rename in the order of the old keys. -/
theorem exists_parts (hs : Sorted changes) {d : String} (hmem : (k, d) ∈ changes) :
    ∃ before after, changes = before ++ (k, d) :: after ∧ (∀ r ∈ before, r.1 < k) ∧
      ∀ r ∈ after, k < r.1 := by
  obtain ⟨before, after, rfl⟩ := List.append_of_mem hmem
  obtain ⟨-, hafter, hbefore⟩ := List.pairwise_append.1 hs
  exact ⟨before, after, rfl, fun r hr => hbefore r hr _ List.mem_cons_self,
    fun r => List.rel_of_pairwise_cons hafter⟩

theorem Chainless.journey_eq (hc : Chainless changes) (hs : Sorted changes) {d : String}
    (hmem : (k, d) ∈ changes) : journey changes k = d := by
  obtain ⟨before, after, rfl, hbefore, hafter⟩ := exists_parts hs hmem
  have hstart : journey before k = k :=
    journey_of_kept fun r hr hold => absurd hold (Std.ne_of_lt (hbefore r hr))
  have hend : journey after d = d := by
    refine journey_of_kept fun r hr hold => ?_
    have hlater : (d, r.2) ∈ before ++ (k, d) :: after :=
      List.mem_append_right _ (List.mem_cons_of_mem _ (hold ▸ hr))
    exact hc k d r.2 hmem hlater (hold ▸ hafter r hr)
  rw [journey_append, hstart, journey_cons, travel, if_pos rfl, hend]

theorem Chainless.renamedOnce (hc : Chainless changes) (hs : Sorted changes)
    (h : Sorted m.tags) : RenamedOnce changes m (changes.foldl renameTag m) where
  origin k v hk := by
    obtain ⟨a, ha, hjourney⟩ := exists_of_tag?_foldl h hk
    by_cases hrenamed : ∃ d, (a, d) ∈ changes
    · obtain ⟨d, hd⟩ := hrenamed
      rw [hc.journey_eq hs hd] at hjourney
      exact .inr ⟨a, hjourney ▸ hd, ha⟩
    · have hnot := not_exists.1 hrenamed
      have hkept : journey changes a = a :=
        journey_of_kept fun r hr hold => (hnot r.2 (hold ▸ hr)).elim
      rw [hkept] at hjourney
      exact .inl (hjourney ▸ ⟨ha, hnot⟩)
  arrival k d v hmem hother hv := by
    obtain ⟨before, after, rfl, hbefore, hafter⟩ := exists_parts hs hmem
    have hstart : (before.foldl renameTag m).tag? k = some v := by
      rw [tag?_foldl_of_untouched h, hv]
      refine fun r hr => ⟨Std.ne_of_lt (hbefore r hr), fun hnew => ?_⟩
      -- A change to `k` before would be the start of a chain, unless `k` is kept.
      have hr' : r ∈ before ++ (k, d) :: after := List.mem_append_left _ hr
      have hd : d = k := hc r.1 k d (hnew ▸ hr') hmem (hbefore r hr)
      have hne : r ≠ (k, d) := fun heq => Std.ne_of_lt (hbefore r hr) (congrArg Prod.fst heq)
      exact (hother r hr' hne).2 (hnew.trans hd.symm)
    have hmoved : (renameTag (before.foldl renameTag m) (k, d)).tag? d = some v := by
      rw [tag?_renameTag_of_some (sorted_foldl_renameTag h before) hstart, if_pos rfl]
    have hlast : ∀ r ∈ after, r.1 ≠ d ∧ r.2 ≠ d := by
      refine fun r hr => hother r (List.mem_append_right _ (List.mem_cons_of_mem _ hr)) ?_
      exact fun heq => Std.ne_of_lt (hafter r hr) (congrArg Prod.fst heq).symm
    rw [List.foldl_append, List.foldl_cons, tag?_foldl_of_untouched
      (sorted_renameTag (sorted_foldl_renameTag h before) _) hlast, hmoved]

/-! ### Renames with a chain -/

def tagged (k v : String) : Metric := ⟨"m", [(k, v)], [("n", .int 1)], .epoch, .untyped⟩

theorem sorted_tagged (k v : String) : Sorted (tagged k v).tags := List.pairwise_singleton _ _

theorem tag?_tagged (k v b : String) : (tagged k v).tag? b = if b = k then some v else none := by
  rw [Metric.tag?, Tags.get?_eq_lookup (sorted_tagged k v)]
  exact lookup_cons_ite k v [] b

theorem renameTag_tagged (k v : String) (change : String × String) :
    renameTag (tagged k v) change = tagged (travel k change) v := by
  have hsorted := sorted_tagged k v
  by_cases hk : change.1 = k
  · have hvalue : (tagged k v).tag? change.1 = some v := (tag?_tagged k v _).trans (if_pos hk)
    have htags : (renameTag (tagged k v) change).tags = (tagged change.2 v).tags := by
      refine Tags.eq_of_get? (sorted_renameTag hsorted change) (sorted_tagged change.2 v)
        fun b => (tag?_renameTag_of_some hsorted hvalue b).trans ?_
      refine Eq.trans ?_ (tag?_tagged change.2 v b).symm
      rw [tag?_tagged, hk]
      by_cases hb : b = k <;> simp [hb]
    rw [renameTag_eq, htags, travel, if_pos hk.symm]
    rfl
  · have hnone : (tagged k v).tag? change.1 = none := (tag?_tagged k v _).trans (if_neg hk)
    rw [renameTag_of_none hnone, travel, if_neg (Ne.symm hk)]

theorem foldl_renameTag_tagged (changes : List (String × String)) (k v : String) :
    changes.foldl renameTag (tagged k v) = tagged (journey changes k) v := by
  induction changes generalizing k with
  | nil => rfl
  | cons change changes ih => rw [List.foldl_cons, renameTag_tagged, ih, journey_cons]

/-- One tag tells how far a chain goes. -/
theorem journey_eq_of_renamedOnce (hs : Sorted changes)
    (h : RenamedOnce changes (tagged k v) (changes.foldl renameTag (tagged k v))) {d : String}
    (hmem : (k, d) ∈ changes) : journey changes k = d := by
  rw [foldl_renameTag_tagged] at h
  have hend : (tagged (journey changes k) v).tag? (journey changes k) = some v := by
    rw [tag?_tagged, if_pos rfl]
  have hsame : ∀ a, (tagged k v).tag? a = some v → a = k := by
    intro a ha
    by_contra hne
    rw [tag?_tagged, if_neg hne] at ha
    cases ha
  rcases h.origin _ v hend with ⟨hkept, hnot⟩ | ⟨a, hdirect, ha⟩
  · rw [hsame _ hkept] at hnot
    exact (hnot d hmem).elim
  · rw [hsame a ha] at hdirect
    have hlookup := (mem_iff_lookup (Tags.nodup_keys hs)).1 hdirect
    rw [(mem_iff_lookup (Tags.nodup_keys hs)).1 hmem] at hlookup
    exact (Option.some.inj hlookup).symm

/-- What is moved to the middle of a chain goes on as what stood there, so a tag
at either key shows the chain. -/
theorem chainless_of_renamedOnce (hs : Sorted changes)
    (h : ∀ k, RenamedOnce changes (tagged k "") (changes.foldl renameTag (tagged k ""))) :
    Chainless changes := by
  intro a b d hab hbd hlt
  obtain ⟨before, after, rfl, hbefore, hafter⟩ := exists_parts hs hab
  -- The changes before move neither `a` nor `b`, and those after take both from `b`.
  have hfirst : ∀ k, a ≤ k → journey before k = k := fun k hle =>
    journey_of_kept fun r hr hold =>
      absurd hold (Std.ne_of_lt (Std.lt_of_lt_of_le (hbefore r hr) hle))
  have ha : journey (before ++ (a, b) :: after) a = journey after b := by
    rw [journey_append, hfirst a (String.le_refl a), journey_cons, travel, if_pos rfl]
  have hb : journey (before ++ (a, b) :: after) b = journey after b := by
    rw [journey_append, hfirst b (Std.le_of_lt hlt), journey_cons, travel,
      if_neg (Std.ne_of_lt hlt).symm]
  have hab' := journey_eq_of_renamedOnce hs (h a) hab
  have hbd' := journey_eq_of_renamedOnce hs (h b) hbd
  rw [← hbd', hb, ← ha, hab']

theorem RenamedOnce.of_perm {before after : Metric} (hperm : changes.Perm renames)
    (h : RenamedOnce changes before after) : RenamedOnce renames before after where
  origin k v hk := by
    simpa only [hperm.mem_iff] using h.origin k v hk
  arrival k d v hmem hother := by
    refine h.arrival k d v (hperm.mem_iff.2 hmem) fun r hr => hother r (hperm.mem_iff.1 hr)

theorem Chainless.of_perm (hperm : changes.Perm renames) (h : Chainless changes) :
    Chainless renames := fun a b d hab hbd =>
  h a b d (hperm.mem_iff.2 hab) (hperm.mem_iff.2 hbd)

/-- Renames with different old keys rename each tag once, at most, for every
filter and every metric, exactly if there is no chain in the order of the keys. -/
theorem renamed_once_iff (renames : List (String × String))
    (hkeys : (renames.map Prod.fst).Nodup) :
    (∀ (c : FilterConfig) (f : Filter) (m : Metric), c.tagRename = renames → c.compile = .ok f →
        Sorted m.tags → RenamedOnce renames (f.trim m) (f.modify m)) ↔
      Chainless renames := by
  have hperm := SortedPairs.ofList_perm hkeys
  have hsorted : Sorted (SortedPairs.ofList renames) := by
    rw [SortedPairs.ofList, ← Tags.insertAll_eq_sortedInsertAll SortedPairs.sorted_nil]
    exact Tags.sorted_insertAll SortedPairs.sorted_nil renames
  constructor
  · intro h
    refine Chainless.of_perm hperm (chainless_of_renamedOnce hsorted fun k => ?_)
    exact (h { FilterConfig.empty with tagRename := renames } _ (tagged k "") rfl rfl
      (sorted_tagged k "")).of_perm hperm.symm
  · intro hc c f m hrename hcompile hm
    have hchanges : f.tagRename = SortedPairs.ofList renames := by
      rw [FilterConfig.eq_of_compile hcompile, ← hrename]
      rfl
    have htrim : Sorted (f.trim m).tags := List.Pairwise.filter _ hm
    rw [modify, hchanges]
    exact ((hc.of_perm hperm.symm).renamedOnce hsorted htrim).of_perm hperm

/-- The new key of the second rename is the old key of the first one. -/
theorem renamed_once_iff_handed_down :
    ([("host", "node"), ("zone", "host")].map Prod.fst).Nodup ∧
      ∀ (c : FilterConfig) (f : Filter) (m : Metric),
        c.tagRename = [("host", "node"), ("zone", "host")] → c.compile = .ok f → Sorted m.tags →
          RenamedOnce [("host", "node"), ("zone", "host")] (f.trim m) (f.modify m) := by
  have hkeys : ([("host", "node"), ("zone", "host")].map Prod.fst).Nodup := by decide
  have hchainless : Chainless [("host", "node"), ("zone", "host")] := by
    intro a b d hab hbd hlt
    simp only [List.mem_cons, Prod.mk.injEq, List.not_mem_nil, or_false] at hab hbd
    rcases hab with ⟨rfl, rfl⟩ | ⟨rfl, rfl⟩
    · rcases hbd with ⟨hb, -⟩ | ⟨hb, -⟩ <;> exact absurd hb (by decide)
    · exact absurd hlt (by decide)
  exact ⟨hkeys, (renamed_once_iff _ hkeys).2 hchainless⟩

/-- With a chain in the order of the keys, the first tag goes all the way, and the
second is lost. -/
theorem tag_renamed_twice :
    ¬ ∀ (c : FilterConfig) (f : Filter) (m : Metric), (c.tagRename.map Prod.fst).Nodup →
        c.compile = .ok f → Sorted m.tags → RenamedOnce c.tagRename (f.trim m) (f.modify m) := by
  intro h
  have honce := h { FilterConfig.empty with tagRename := [("a", "b"), ("b", "t")] } _
    ⟨"m", [("a", "1"), ("b", "2")], [("v", .int 1)], .epoch, .untyped⟩ (by decide) rfl (by decide)
  rcases honce.origin "t" "1" (by decide +kernel) with ⟨hkept, -⟩ | ⟨k, hmem, hvalue⟩
  · exact absurd hkept (by decide +kernel)
  · simp only [List.mem_cons, Prod.mk.injEq, List.not_mem_nil, or_false] at hmem
    rcases hmem with ⟨-, hnew⟩ | ⟨rfl, -⟩
    · exact absurd hnew (by decide)
    · exact absurd hvalue (by decide +kernel)

end Filter
end MetricAgent
