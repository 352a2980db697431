import MetricAgent.Metric.Rename
import MetricAgent.Proofs.Aggregator.Merging

/-!
# Metrics stay well-formed

Whatever is made as a metric is well-formed, and every operation on names, tags
and fields keeps it so but one: fields may be removed until none is left. A
filter does that and looks afterwards, so what it lets through is well-formed
again, and so is all that a grouper holds.
-/

namespace MetricAgent

open SortedPairs (Sorted)

namespace Tags

variable {tags : Tags}

theorem sorted_insertMissing (h : Sorted tags) (pairs : List (String × String)) :
    Sorted (insertMissing pairs tags) := by
  refine List.foldlRecOn (motive := Sorted) pairs _ h fun ts hts p _ => ?_
  split
  · exact hts
  · exact sorted_insert hts p.1 p.2

end Tags

namespace Fields

variable {fields : Fields}

theorem distinct_insertAll (h : Distinct fields) (pairs : List (String × FieldValue)) :
    Distinct (insertAll pairs fields) :=
  List.foldlRecOn (motive := Distinct) pairs _ h fun _ hfs p _ => distinct_insert hfs p.1 p.2

theorem insert_ne_nil (key : String) (value : FieldValue) (fields : Fields) :
    insert key value fields ≠ [] := by
  unfold insert
  split
  · exact List.cons_ne_nil _ _
  · split <;> exact List.cons_ne_nil _ _

theorem insertAll_ne_nil (h : fields ≠ []) (pairs : List (String × FieldValue)) :
    insertAll pairs fields ≠ [] :=
  List.foldlRecOn (motive := (· ≠ [])) pairs _ h fun fs _ p _ => insert_ne_nil p.1 p.2 fs

end Fields

namespace Metric

variable {m : Metric} {name : String}

theorem wellFormed_make {fields : List (String × FieldValue)} {timestamp : Timestamp}
    (h : make name fields timestamp = .ok m) : m.WellFormed := by
  unfold make at h
  split at h
  · cases h
  · next hname =>
    dsimp only at h
    split at h
    · cases h
    · next hfields =>
      cases h
      exact ⟨hname, fun hnil => hfields (List.isEmpty_iff.2 hnil), SortedPairs.sorted_nil,
        Fields.distinct_ofList fields⟩

namespace WellFormed

theorem withName (h : m.WellFormed) (hname : name ≠ "") :
    ({ m with name := name } : Metric).WellFormed :=
  ⟨hname, h.fields_ne, h.tags_sorted, h.fields_distinct⟩

theorem withTags (h : m.WellFormed) {tags : Tags} (htags : Sorted tags) :
    ({ m with tags := tags } : Metric).WellFormed :=
  ⟨h.name_ne, h.fields_ne, htags, h.fields_distinct⟩

theorem withKind (h : m.WellFormed) (kind : MetricKind) :
    ({ m with kind := kind } : Metric).WellFormed :=
  ⟨h.name_ne, h.fields_ne, h.tags_sorted, h.fields_distinct⟩

theorem setName (h : m.WellFormed) (name : String) : (m.setName name).WellFormed := by
  unfold Metric.setName
  split
  · exact h
  · next hname => exact h.withName hname

theorem rename (h : m.WellFormed) (r : Rename) : (r.apply m).WellFormed := by
  unfold Rename.apply
  split
  · refine h.withName fun hempty => h.name_ne ?_
    exact (String.append_eq_empty_iff.1 (String.append_eq_empty_iff.1 hempty).1).2
  · exact h.setName r.name

theorem addTags (h : m.WellFormed) (pairs : List (String × String)) :
    (m.addTags pairs).WellFormed :=
  h.withTags (Tags.sorted_insertAll h.tags_sorted pairs)

theorem addMissingTags (h : m.WellFormed) (pairs : List (String × String)) :
    (m.addMissingTags pairs).WellFormed :=
  h.withTags (Tags.sorted_insertMissing h.tags_sorted pairs)

theorem removeTag (h : m.WellFormed) (key : String) : (m.removeTag key).WellFormed :=
  h.withTags (Tags.sorted_erase h.tags_sorted key)

theorem removeTags (h : m.WellFormed) (keys : List String) :
    (keys.foldl Metric.removeTag m).WellFormed :=
  List.foldlRecOn (motive := Metric.WellFormed) keys _ h fun _ hn key _ => hn.removeTag key

theorem addFields (h : m.WellFormed) (pairs : List (String × FieldValue)) :
    (m.addFields pairs).WellFormed :=
  ⟨h.name_ne, Fields.insertAll_ne_nil h.fields_ne pairs, h.tags_sorted,
    Fields.distinct_insertAll h.fields_distinct pairs⟩

end WellFormed
end Metric

namespace Filter

variable {f : Filter} {m n : Metric}

/-- Renaming tags changes nothing but the tags. -/
theorem modify_eq (f : Filter) (m : Metric) :
    f.modify m = { f.trim m with tags := (f.modify m).tags } := by
  refine List.foldlRecOn (motive := fun n : Metric => n = { f.trim m with tags := n.tags })
    f.tagRename renameTag rfl fun n hn change _ => ?_
  rw [renameTag_eq]
  generalize (renameTag n change).tags = tags
  rw [hn]

theorem name_modify (f : Filter) (m : Metric) : (f.modify m).name = m.name := by
  rw [modify_eq]
  rfl

/-- What a filter leaves of a metric is well-formed unless it has no fields. -/
theorem wellFormed_modify (h : m.WellFormed) (hfields : (f.modify m).fields.isEmpty = false) :
    (f.modify m).WellFormed := by
  obtain ⟨htags, hdistinct⟩ := canonical_modify ⟨h.tags_sorted, h.fields_distinct⟩ f
  exact ⟨by rw [f.name_modify]; exact h.name_ne, List.isEmpty_eq_false_iff.1 hfields, htags,
    hdistinct⟩

/-- So a filter lets nothing else through, whether it is active or not. -/
theorem wellFormed_apply (h : m.WellFormed) (happly : f.apply m = some n) : n.WellFormed := by
  unfold apply at happly
  split at happly
  · cases happly
    exact h
  · split at happly
    · cases happly
    · dsimp only at happly
      split at happly
      · cases happly
      · next hfields =>
        cases happly
        exact wellFormed_modify h (Bool.eq_false_iff.2 hfields)

end Filter

namespace Grouper

def Intact (g : Grouper) : Prop := ∀ m ∈ g.entries, m.WellFormed

theorem Intact.addMetric {g : Grouper} {m : Metric} (h : g.Intact) (hm : m.WellFormed) :
    (g.addMetric m).Intact := by
  unfold Grouper.addMetric
  split
  · exact forall_mem_modify h (fun n hn => hn.addFields m.fields) _
  · intro n hn
    rcases List.mem_append.1 hn with hn | hn
    · exact h n hn
    · rw [List.mem_singleton.1 hn]
      exact hm

end Grouper
end MetricAgent
