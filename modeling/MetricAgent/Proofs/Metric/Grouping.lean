import MetricAgent.Metric.Grouper
import MetricAgent.Proofs.Metric.Fields
import MetricAgent.Proofs.Metric.Tags

/-!
# Grouping as a fold

`Grouper.grouping` says what a list of observations comes to: one metric for
each name, tags and timestamp, in the order of first sight, of the kind that
was seen first, with the value last observed for each key. A grouper that has
seen the observations holds just that (`Grouper.Groups`). Its index is then
the exact inverse of its list of entries, so whatever it changes in place is
the entry that it means, and there is no other one like it.
-/

namespace MetricAgent

namespace Metric

/-- What holds of the tags and the fields of every metric, whatever has been
done to it. -/
structure Canonical (m : Metric) : Prop where
  tags_sorted : SortedPairs.Sorted m.tags
  fields_distinct : Fields.Distinct m.fields

end Metric

namespace Grouper

/-- The metric that the observations of one identity come to. -/
def entry (id : Metric.Identity) (seen : List Metric) : Metric where
  name := id.name
  tags := id.tags
  fields := Fields.latest (seen.flatMap Metric.fields)
  timestamp := id.timestamp
  kind := (seen.head?.map Metric.kind).getD .untyped

def identities (seen : List Metric) : List Metric.Identity :=
  (seen.map Metric.identity).eraseDups

def grouping (seen : List Metric) : List Metric :=
  (identities seen).map fun id => entry id (seen.filter fun m => m.identity = id)

variable {seen : List Metric} {m : Metric} {id : Metric.Identity}

@[simp] theorem identity_entry (id : Metric.Identity) (seen : List Metric) :
    (entry id seen).identity = id := rfl

theorem identities_concat (seen : List Metric) (m : Metric) :
    identities (seen ++ [m]) =
      if m.identity ∈ identities seen then identities seen
      else identities seen ++ [m.identity] := by
  unfold identities
  rw [List.map_append, List.map_singleton, eraseDups_concat]
  exact if_congr List.mem_eraseDups.symm rfl rfl

theorem mem_identities : id ∈ identities seen ↔ ∃ m ∈ seen, m.identity = id :=
  List.mem_eraseDups.trans List.mem_map

theorem nodup_identities (seen : List Metric) : (identities seen).Nodup :=
  nodup_eraseDups _

theorem map_identity_grouping (seen : List Metric) :
    (grouping seen).map Metric.identity = identities seen := by
  unfold grouping
  rw [List.map_map]
  exact List.map_id _

/-! ### One more observation -/

theorem entry_singleton (h : Fields.Distinct m.fields) : entry m.identity [m] = m := by
  have hfields : Fields.latest m.fields = m.fields := by
    rw [← Fields.ofList_eq_latest]
    exact Fields.insertAll_of_distinct h
  simp [entry, hfields, Metric.identity]

theorem entry_concat (id : Metric.Identity) (hseen : seen ≠ []) (m : Metric) :
    entry id (seen ++ [m]) = (entry id seen).addFields m.fields := by
  have hfields : Fields.latest ((seen ++ [m]).flatMap Metric.fields) =
      Fields.insertAll m.fields (Fields.latest (seen.flatMap Metric.fields)) := by
    rw [← Fields.ofList_eq_latest, ← Fields.ofList_eq_latest, List.flatMap_append,
      List.flatMap_singleton]
    exact Fields.insertAll_append _ _ []
  have hhead : (seen ++ [m]).head? = seen.head? := List.head?_append_of_ne_nil seen hseen
  unfold entry Metric.addFields
  rw [hfields, hhead]

/-- An observation adds to the entry that it belongs to, if there is one. -/
theorem grouping_concat_of_mem (h : m.identity ∈ identities seen) :
    grouping (seen ++ [m]) = (grouping seen).map fun e =>
      if e.identity = m.identity then e.addFields m.fields else e := by
  unfold grouping
  rw [identities_concat, if_pos h, List.map_map]
  refine List.map_congr_left fun id hid => ?_
  rw [Function.comp_apply, identity_entry, List.filter_append]
  by_cases heq : id = m.identity
  · subst heq
    have hne : (seen.filter fun n => n.identity = m.identity) ≠ [] := by
      obtain ⟨n, hn, hsame⟩ := mem_identities.1 hid
      exact List.ne_nil_of_mem (List.mem_filter.2 ⟨hn, decide_eq_true hsame⟩)
    rw [if_pos rfl, List.filter_singleton, decide_eq_true rfl]
    exact entry_concat _ hne m
  · rw [if_neg heq, List.filter_singleton, decide_eq_false (Ne.symm heq)]
    exact congrArg _ (List.append_nil _)

/-- An observation of its own kind opens an entry. -/
theorem grouping_concat_of_not_mem (h : m.identity ∉ identities seen)
    (hm : Fields.Distinct m.fields) : grouping (seen ++ [m]) = grouping seen ++ [m] := by
  unfold grouping
  rw [identities_concat, if_neg h, List.map_append, List.map_singleton]
  have hnone : (seen.filter fun n => n.identity = m.identity) = [] :=
    List.filter_eq_nil_iff.2 fun n hn hsame => h (mem_identities.2 ⟨n, hn, of_decide_eq_true hsame⟩)
  have hnew : entry m.identity ((seen ++ [m]).filter fun n => n.identity = m.identity) = m := by
    rw [List.filter_append, hnone, List.filter_singleton, decide_eq_true rfl]
    exact entry_singleton hm
  rw [hnew]
  refine congrArg (· ++ [m]) (List.map_congr_left fun id hid => ?_)
  have hne : m.identity ≠ id := fun heq => h (heq ▸ hid)
  rw [List.filter_append, List.filter_singleton, decide_eq_false hne]
  exact congrArg _ (List.append_nil _)

/-! ### What a grouper holds -/

/-- A grouper that has seen some observations. -/
structure Groups (g : Grouper) (seen : List Metric) : Prop where
  entries : g.entries = grouping seen
  index : ∀ id i, g.index.lookup id = some i ↔ (identities seen)[i]? = some id

variable {g : Grouper}

theorem groups_empty : empty.Groups [] where
  entries := rfl
  index _ _ := ⟨nofun, nofun⟩

theorem Groups.addMetric (h : g.Groups seen) (hm : Fields.Distinct m.fields) :
    (g.addMetric m).Groups (seen ++ [m]) := by
  cases hlookup : g.index.lookup m.identity with
  | some i =>
      have hi : (identities seen)[i]? = some m.identity := (h.index _ _).1 hlookup
      have hmem : m.identity ∈ identities seen := List.mem_of_getElem? hi
      rw [addMetric_of_lookup hlookup]
      refine ⟨?_, fun id j => ?_⟩
      · rw [grouping_concat_of_mem hmem, h.entries]
        refine modify_eq_map ?_ ?_ _
        · exact map_identity_grouping seen ▸ nodup_identities seen
        · exact map_identity_grouping seen ▸ hi
      · rw [identities_concat, if_pos hmem]
        exact h.index id j
  | none =>
      have hmem : m.identity ∉ identities seen := by
        intro hmem
        obtain ⟨i, hi⟩ := List.mem_iff_getElem?.1 hmem
        have := (h.index _ _).2 hi
        simp [hlookup] at this
      have hlength : g.entries.length = (identities seen).length := by
        rw [h.entries, grouping, List.length_map]
      rw [addMetric_of_lookup_eq_none hlookup]
      refine ⟨?_, fun id j => ?_⟩
      · rw [grouping_concat_of_not_mem hmem hm, h.entries]
      · rw [identities_concat, if_neg hmem, lookup_cons_ite, getElem?_concat_eq_some_iff, hlength]
        by_cases hid : id = m.identity
        · subst hid
          rw [if_pos rfl, Option.some_inj, and_iff_left rfl]
          exact ⟨fun hj => .inr hj.symm, fun hj => (hj.resolve_left fun hj =>
            hmem (List.mem_of_getElem? hj)).symm⟩
        · rw [if_neg hid, h.index]
          exact (or_iff_left fun hj => hid hj.2.symm).symm

/-! ### Values observed one by one -/

def observation (name : String) (tags : List (String × String)) (timestamp : Timestamp)
    (key : String) (value : FieldValue) : Metric :=
  ⟨name, SortedPairs.ofList tags, [(key, value)], timestamp, .untyped⟩

theorem add_eq (g : Grouper) (name : String) (tags : List (String × String))
    (timestamp : Timestamp) (key : String) (value : FieldValue) :
    g.add name tags timestamp key value =
      if name = "" then .error .emptyName
      else .ok (g.addMetric (observation name tags timestamp key value)) := by
  by_cases hname : name = ""
  · subst hname
    rfl
  · have htags : Tags.insertAll tags [] = SortedPairs.ofList tags :=
      Tags.insertAll_eq_sortedInsertAll SortedPairs.sorted_nil tags
    rw [if_neg hname, observation, ← htags]
    simp only [add, Metric.make, if_neg hname]
    rfl

/-- What is observed of one identity in two steps may as well be observed in one. -/
theorem addMetric_addMetric (g : Grouper) (m : Metric) {fields others : Fields}
    (h : Fields.Distinct (fields ++ others)) :
    (g.addMetric { m with fields := fields }).addMetric { m with fields := others } =
      g.addMetric { m with fields := fields ++ others } := by
  obtain ⟨index, entries⟩ := g
  cases hlookup : index.lookup m.identity with
  | some i =>
      have hadd : ∀ (es : List Metric) (fs : Fields),
          addMetric ⟨index, es⟩ { m with fields := fs } =
            ⟨index, es.modify i fun e => e.addFields fs⟩ :=
        fun es fs => addMetric_of_lookup hlookup
      have htwice : ∀ e : Metric, (e.addFields fields).addFields others =
          e.addFields (fields ++ others) := by
        intro e
        unfold Metric.addFields
        rw [Fields.insertAll_append]
      rw [hadd, hadd, hadd, List.modify_modify_eq]
      exact congrArg (fun f => Grouper.mk index (entries.modify i f)) (funext htwice)
  | none =>
      have hadd : ∀ fs : Fields, addMetric ⟨index, entries⟩ { m with fields := fs } =
          ⟨(m.identity, entries.length) :: index, entries ++ [{ m with fields := fs }]⟩ :=
        fun fs => addMetric_of_lookup_eq_none hlookup
      have hfound : List.lookup m.identity ((m.identity, entries.length) :: index) =
          some entries.length := List.lookup_cons_self
      rw [hadd, hadd, addMetric_of_lookup hfound]
      simp [List.modify_eq_take_cons_drop, Metric.addFields, Fields.insertAll_of_distinct h]

section ValueByValue

variable (h : m.WellFormed) (hkind : m.kind = .untyped) (g : Grouper)
include h hkind

theorem add_field_eq (f : String × FieldValue) :
    g.add m.name m.tags m.timestamp f.1 f.2 = .ok (g.addMetric { m with fields := [f] }) := by
  have htags : SortedPairs.ofList m.tags = m.tags :=
    (Tags.insertAll_eq_sortedInsertAll SortedPairs.sorted_nil m.tags).symm.trans
      (Tags.insertAll_of_sorted h.tags_sorted)
  rw [add_eq, if_neg h.name_ne, observation, htags, ← hkind]

/-- Beyond the first values, which find or open the entry. -/
theorem foldlM_add_append {fields rest : Fields} (hd : Fields.Distinct (fields ++ rest)) :
    rest.foldlM (fun g f => g.add m.name m.tags m.timestamp f.1 f.2)
        (g.addMetric { m with fields := fields }) =
      .ok (g.addMetric { m with fields := fields ++ rest }) := by
  induction rest generalizing fields with
  | nil =>
      rw [List.append_nil]
      rfl
  | cons f rest ih =>
      have happend : fields ++ f :: rest = fields ++ [f] ++ rest := by simp
      have hfirst : Fields.Distinct (fields ++ [f]) :=
        ((List.sublist_append_left _ rest).map Prod.fst).nodup (happend ▸ hd)
      rw [happend, ← ih (happend ▸ hd), ← addMetric_addMetric g m hfirst, List.foldlM_cons,
        add_field_eq h hkind]
      rfl

/-- A metric of no kind may as well be observed value by value. -/
theorem foldlM_add_eq :
    m.fields.foldlM (fun g f => g.add m.name m.tags m.timestamp f.1 f.2) g =
      .ok (g.addMetric m) := by
  obtain ⟨f, rest, hfields⟩ := List.exists_cons_of_ne_nil h.fields_ne
  have hm : { m with fields := [f] ++ rest } = m := by
    rw [List.singleton_append, ← hfields]
  have hd : Fields.Distinct ([f] ++ rest) := by
    rw [List.singleton_append, ← hfields]
    exact h.fields_distinct
  rw [hfields, List.foldlM_cons, add_field_eq h hkind]
  refine (foldlM_add_append h hkind g hd).trans ?_
  rw [hm]

end ValueByValue

/-! ### Histories of a grouper -/

inductive Action where
  | add (name : String) (tags : List (String × String)) (timestamp : Timestamp) (key : String)
      (value : FieldValue)
  | addMetric (m : Metric)
  | reset

def act (g : Grouper) : Action → Grouper
  | .add name tags timestamp key value =>
    match g.add name tags timestamp key value with
    | .ok g => g
    | .error _ => g
  | .addMetric m => g.addMetric m
  | .reset => empty

def run (g : Grouper) (actions : List Action) : Grouper := actions.foldl act g

/-- What has been observed since the last reset, after an action. A value that
is observed by itself has no kind, and its tags are a map. -/
def sees (seen : List Metric) : Action → List Metric
  | .add name tags timestamp key value =>
    if name = "" then seen
    else seen ++ [observation name tags timestamp key value]
  | .addMetric m => seen ++ [m]
  | .reset => []

def observed (actions : List Action) : List Metric := actions.foldl sees []

theorem canonical_observation (name : String) (tags : List (String × String))
    (timestamp : Timestamp) (key : String) (value : FieldValue) :
    (observation name tags timestamp key value).Canonical where
  tags_sorted := by
    unfold observation SortedPairs.ofList
    rw [← Tags.insertAll_eq_sortedInsertAll SortedPairs.sorted_nil]
    exact Tags.sorted_insertAll SortedPairs.sorted_nil tags
  fields_distinct := List.nodup_singleton key

theorem act_add (g : Grouper) (name : String) (tags : List (String × String))
    (timestamp : Timestamp) (key : String) (value : FieldValue) :
    g.act (.add name tags timestamp key value) =
      if name = "" then g else g.addMetric (observation name tags timestamp key value) := by
  simp only [act, add_eq]
  by_cases hname : name = ""
  · rw [if_pos hname, if_pos hname]
  · rw [if_neg hname, if_neg hname]

theorem canonical_concat (h : ∀ n ∈ seen, n.Canonical) (hm : m.Canonical) :
    ∀ n ∈ seen ++ [m], n.Canonical :=
  List.forall_mem_append.2 ⟨h, List.forall_mem_singleton.2 hm⟩

theorem canonical_sees (h : ∀ n ∈ seen, n.Canonical) {action : Action}
    (ha : ∀ n, action = .addMetric n → n.Canonical) :
    ∀ n ∈ sees seen action, n.Canonical := by
  cases action with
  | add name tags timestamp key value =>
      simp only [sees]
      split
      · exact h
      · exact canonical_concat h (canonical_observation name tags timestamp key value)
  | addMetric m =>
      have hm : m.Canonical := ha m rfl
      exact canonical_concat h hm
  | reset => exact List.forall_mem_nil _

theorem Groups.act (h : g.Groups seen) {action : Action}
    (ha : ∀ n, action = .addMetric n → n.Canonical) : (g.act action).Groups (sees seen action) := by
  cases action with
  | add name tags timestamp key value =>
      rw [act_add]
      simp only [sees]
      split
      · exact h
      · exact h.addMetric (canonical_observation name tags timestamp key value).fields_distinct
  | addMetric m =>
      have hm : m.Canonical := ha m rfl
      exact h.addMetric hm.fields_distinct
  | reset => exact groups_empty

/-- A history that feeds nothing but metrics. -/
theorem groups_run (h : g.Groups seen) (hseen : ∀ n ∈ seen, n.Canonical) {actions : List Action}
    (ha : ∀ n, .addMetric n ∈ actions → n.Canonical) :
    (g.run actions).Groups (actions.foldl sees seen) ∧
      ∀ n ∈ actions.foldl sees seen, n.Canonical := by
  induction actions generalizing g seen with
  | nil => exact ⟨h, hseen⟩
  | cons action actions ih =>
      have hfirst : ∀ n, action = .addMetric n → n.Canonical := by
        rintro n rfl
        exact ha n List.mem_cons_self
      exact ih (h.act hfirst) (canonical_sees hseen hfirst) fun n hn =>
        ha n (List.mem_cons_of_mem _ hn)

/-- No two entries agree in their names, in what their tags say, and in their
timestamps. -/
theorem pairwise_grouping (h : ∀ n ∈ seen, n.Canonical) :
    (grouping seen).Pairwise fun a b =>
      ¬ (a.name = b.name ∧ (∀ key, a.tag? key = b.tag? key) ∧ a.timestamp = b.timestamp) := by
  have hsorted : ∀ e ∈ grouping seen, SortedPairs.Sorted e.tags := by
    intro e he
    have hid : e.identity ∈ identities seen :=
      map_identity_grouping seen ▸ List.mem_map_of_mem he
    obtain ⟨n, hn, hsame⟩ := mem_identities.1 hid
    have htags : n.tags = e.tags := congrArg Metric.Identity.tags hsame
    exact htags ▸ (h n hn).tags_sorted
  have hnodup : ((grouping seen).map Metric.identity).Nodup :=
    map_identity_grouping seen ▸ nodup_identities seen
  refine (List.pairwise_map.1 hnodup).imp_of_mem ?_
  rintro a b ha hb hne ⟨hname, htags, htime⟩
  refine hne ?_
  unfold Metric.identity
  rw [hname, htime, Tags.eq_of_get? (hsorted a ha) (hsorted b hb) htags]

end Grouper
end MetricAgent
