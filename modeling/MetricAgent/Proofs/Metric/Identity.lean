import MetricAgent.Metric.Keyed
import MetricAgent.Proofs.Metric.Fields
import MetricAgent.Proofs.Metric.Tags
import Mathlib.Logic.Function.Basic

/-!
# What a metric's history leaves

An `Account` is kept beside a metric: the value last written for each tag and
each field that has not been removed since, and the order in which the fields
came. The metric stays a faithful picture of it (`Metric.Records`), whatever
the operations are, and a remembered key stays the key of the series
(`Keyed.Fresh`). Since the tags are sorted, the account of the tags and the
name fix the key, whichever way they were reached.
-/

namespace MetricAgent

open SortedPairs (Sorted)

/-- The values of the tags, by key. -/
abbrev TagMap := String → Option String

namespace TagMap

def set (f : TagMap) (key value : String) : TagMap := Function.update f key (some value)

def setAll (f : TagMap) (pairs : List (String × String)) : TagMap :=
  pairs.foldl (fun f p => f.set p.1 p.2) f

def remove (f : TagMap) (key : String) : TagMap := Function.update f key none

def keep (f : TagMap) (keep : String × String → Bool) : TagMap :=
  fun key => (f key).filter fun value => keep (key, value)

end TagMap

/-- The values of the fields, by key, and the keys in the order in which they
first came. -/
structure FieldLog where
  value : String → Option FieldValue
  keys : List String

namespace FieldLog

def empty : FieldLog := ⟨fun _ => none, []⟩

def set (l : FieldLog) (key : String) (value : FieldValue) : FieldLog :=
  ⟨Function.update l.value key (some value), if key ∈ l.keys then l.keys else l.keys ++ [key]⟩

def setAll (l : FieldLog) (pairs : List (String × FieldValue)) : FieldLog :=
  pairs.foldl (fun l p => l.set p.1 p.2) l

def keep (l : FieldLog) (keep : String × FieldValue → Bool) : FieldLog :=
  ⟨fun key => (l.value key).filter fun value => keep (key, value),
    l.keys.filter fun key => (l.value key).any fun value => keep (key, value)⟩

end FieldLog

namespace Tags

/-- Sorted tags that answer as a map does. -/
structure Records (tags : Tags) (f : TagMap) : Prop where
  sorted : Sorted tags
  get? : ∀ key, get? key tags = f key

variable {tags : Tags} {f : TagMap}

theorem Records.insert (h : Records tags f) (key value : String) :
    Records (insert key value tags) (f.set key value) where
  sorted := sorted_insert h.sorted key value
  get? k := by
    rw [get?_insert h.sorted, h.get?]
    exact (Function.update_apply _ _ _ _).symm

theorem Records.insertAll (h : Records tags f) (pairs : List (String × String)) :
    Records (insertAll pairs tags) (f.setAll pairs) := by
  induction pairs generalizing tags f with
  | nil => exact h
  | cons p pairs ih => exact ih (h.insert p.1 p.2)

theorem Records.erase (h : Records tags f) (key : String) :
    Records (erase key tags) (f.remove key) where
  sorted := sorted_erase h.sorted key
  get? k := by
    rw [get?_erase h.sorted, h.get?]
    exact (Function.update_apply _ _ _ _).symm

theorem Records.filter (h : Records tags f) (keep : String × String → Bool) :
    Records (tags.filter keep) (f.keep keep) where
  sorted := List.Pairwise.filter keep h.sorted
  get? k := by
    rw [get?_filter h.sorted, h.get?]
    rfl

end Tags

namespace Fields

/-- Fields without a key twice that answer as a map does, in the order of their
keys. -/
structure Records (fields : Fields) (l : FieldLog) : Prop where
  distinct : Distinct fields
  keys : fields.map Prod.fst = l.keys
  get? : ∀ key, get? key fields = l.value key

variable {fields : Fields} {l : FieldLog}

theorem Records.insert (h : Records fields l) (key : String) (value : FieldValue) :
    Records (insert key value fields) (l.set key value) where
  distinct := distinct_insert h.distinct key value
  keys := by
    rw [keys_insert, h.keys]
    rfl
  get? k := by
    rw [get?_insert, h.get?]
    exact (Function.update_apply _ _ _ _).symm

theorem Records.insertAll (h : Records fields l) (pairs : List (String × FieldValue)) :
    Records (insertAll pairs fields) (l.setAll pairs) := by
  induction pairs generalizing fields l with
  | nil => exact h
  | cons p pairs ih => exact ih (h.insert p.1 p.2)

theorem Records.filter (h : Records fields l) (keep : String × FieldValue → Bool) :
    Records (fields.filter keep) (l.keep keep) where
  distinct := distinct_filter h.distinct keep
  keys := by
    rw [keys_filter h.distinct, h.keys]
    exact List.filter_congr fun k _ => by rw [h.get?]
  get? k := by
    refine (lookup_filter h.distinct keep k).trans ?_
    exact congrArg _ (h.get? k)

end Fields

/-- What has been written to a metric and not been removed again. -/
structure Account where
  tags : TagMap
  fields : FieldLog

namespace Account

def ofFields (fields : List (String × FieldValue)) : Account :=
  ⟨fun _ => none, FieldLog.empty.setAll fields⟩

def apply (a : Account) : Keyed.Action → Account
  | .addTag key value => { a with tags := a.tags.set key value }
  | .addTags pairs => { a with tags := a.tags.setAll pairs }
  | .removeTag key => { a with tags := a.tags.remove key }
  | .retainTags keep => { a with tags := a.tags.keep keep }
  | .filterTags keep => { a with tags := a.tags.keep fun t => keep t.1 }
  | .addField key value => { a with fields := a.fields.set key value }
  | .retainFields keep => { a with fields := a.fields.keep keep }
  | .filterFields keep => { a with fields := a.fields.keep fun f => keep f.1 }
  | .setName _ | .prepend _ | .append _ | .setKind _ | .setTimestamp _ | .readKey | .clone => a

def run (a : Account) (actions : List Keyed.Action) : Account := actions.foldl apply a

end Account

namespace Metric

/-- A metric with a name whose tags and fields are those of an account. -/
structure Records (m : Metric) (a : Account) : Prop where
  name_ne : m.name ≠ ""
  tags : m.tags.Records a.tags
  fields : m.fields.Records a.fields

variable {m : Metric} {a : Account}

theorem records_make {name : String} {fields : List (String × FieldValue)} {timestamp : Timestamp}
    (h : make name fields timestamp = .ok m) : m.Records (.ofFields fields) := by
  unfold make at h
  split at h
  · cases h
  · next hname =>
    dsimp only at h
    split at h
    · cases h
    · cases h
      exact ⟨hname, ⟨SortedPairs.sorted_nil, fun _ => rfl⟩,
        Fields.Records.insertAll ⟨Fields.distinct_nil, rfl, fun _ => rfl⟩ fields⟩

theorem Records.rename (h : m.Records a) {name : String} (hname : name ≠ "") :
    Records { m with name := name } a :=
  ⟨hname, h.tags, h.fields⟩

theorem Records.setName (h : m.Records a) (name : String) : (m.setName name).Records a := by
  unfold Metric.setName
  split
  · exact h
  · next hname => exact h.rename hname

end Metric

namespace Keyed

variable {k : Keyed} {a : Account}

theorem records_apply (h : k.metric.Records a) (action : Action) :
    (k.apply action).metric.Records (a.apply action) := by
  cases action with
  | addTag key value => exact ⟨h.name_ne, h.tags.insert key value, h.fields⟩
  | addTags pairs => exact ⟨h.name_ne, h.tags.insertAll pairs, h.fields⟩
  | removeTag key => exact ⟨h.name_ne, h.tags.erase key, h.fields⟩
  | retainTags keep => exact ⟨h.name_ne, h.tags.filter keep, h.fields⟩
  | filterTags keep => exact ⟨h.name_ne, h.tags.filter _, h.fields⟩
  | addField key value => exact ⟨h.name_ne, h.tags, h.fields.insert key value⟩
  | retainFields keep => exact ⟨h.name_ne, h.tags, h.fields.filter keep⟩
  | filterFields keep => exact ⟨h.name_ne, h.tags, h.fields.filter _⟩
  | setName name => exact h.setName name
  | prepend text =>
      exact h.rename fun hempty => h.name_ne (String.append_eq_empty_iff.1 hempty).2
  | append text =>
      exact h.rename fun hempty => h.name_ne (String.append_eq_empty_iff.1 hempty).1
  | setKind kind => exact ⟨h.name_ne, h.tags, h.fields⟩
  | setTimestamp timestamp => exact ⟨h.name_ne, h.tags, h.fields⟩
  | readKey => exact h
  | clone => exact h

theorem records_run (h : k.metric.Records a) (actions : List Action) :
    (k.run actions).metric.Records (a.run actions) := by
  induction actions generalizing k a with
  | nil => exact h
  | cons action actions ih => exact ih (records_apply h action)

/-- What is remembered is the key of the series. -/
def Fresh (k : Keyed) : Prop := ∀ w, k.key = some w → w = k.metric.seriesKey

theorem fresh_none (m : Metric) : Fresh ⟨m, none⟩ := nofun

theorem Fresh.seriesKey_eq (h : k.Fresh) : k.seriesKey = k.metric.seriesKey := by
  unfold seriesKey
  cases hkey : k.key with
  | none => rfl
  | some w => exact h w hkey

/-- A key may be kept as long as the name and the tags are. -/
theorem Fresh.keep (h : k.Fresh) {m : Metric} (hname : m.name = k.metric.name)
    (htags : m.tags = k.metric.tags) : Fresh ⟨m, k.key⟩ := by
  intro w hw
  rw [h w hw]
  unfold Metric.seriesKey
  rw [hname, htags]

theorem Fresh.retainTags (h : k.Fresh) (keep : String × String → Bool) :
    (k.retainTags keep).Fresh := by
  unfold Keyed.retainTags
  dsimp only
  split
  · next hlength =>
    exact h.keep rfl (List.filter_sublist.eq_of_length hlength)
  · exact fresh_none _

theorem Fresh.apply (h : k.Fresh) (action : Action) : (k.apply action).Fresh := by
  cases action with
  | addTag key value => exact fresh_none _
  | addTags pairs =>
      cases pairs with
      | nil => exact h.keep rfl rfl
      | cons p pairs => exact fresh_none _
  | removeTag key =>
      cases hhas : k.metric.hasTag key with
      | true => simpa only [Keyed.apply, hhas, if_true] using fresh_none _
      | false =>
          have hkept : (k.metric.removeTag key).tags = k.metric.tags := Tags.erase_of_not_has hhas
          simpa only [Keyed.apply, hhas, Bool.false_eq_true, if_false] using
            h.keep (m := k.metric.removeTag key) rfl hkept
  | retainTags keep => exact h.retainTags keep
  | filterTags keep => exact h.retainTags _
  | addField key value => exact h.keep rfl rfl
  | retainFields keep => exact h.keep rfl rfl
  | filterFields keep => exact h.keep rfl rfl
  | setName name =>
      by_cases hname : name = ""
      · simpa only [Keyed.apply, Metric.setName, if_pos hname] using h
      · simpa only [Keyed.apply, if_neg hname] using fresh_none _
  | prepend text =>
      by_cases htext : text = ""
      · subst htext
        exact h.keep String.empty_append rfl
      · simpa only [Keyed.apply, if_neg htext] using fresh_none _
  | append text =>
      by_cases htext : text = ""
      · subst htext
        exact h.keep String.append_empty rfl
      · simpa only [Keyed.apply, if_neg htext] using fresh_none _
  | setKind kind => exact h.keep rfl rfl
  | setTimestamp timestamp => exact h.keep rfl rfl
  | readKey =>
      intro w hw
      cases hw
      exact h.seriesKey_eq
  | clone => exact h

theorem Fresh.run (h : k.Fresh) (actions : List Action) : (k.run actions).Fresh := by
  induction actions generalizing k with
  | nil => exact h
  | cons action actions ih => exact ih (h.apply action)

/-- A metric and its key after any history, against what the history wrote, and
against a second history that ends with the same name and the same tags. -/
theorem run_as_map {name : String} {fields : List (String × FieldValue)} {timestamp : Timestamp}
    {m : Metric} (hmake : Metric.make name fields timestamp = .ok m) (actions : List Action) :
    let k := (ofMetric m).run actions
    let a := (Account.ofFields fields).run actions
    k.metric.name ≠ "" ∧ Sorted k.metric.tags ∧ Fields.Distinct k.metric.fields ∧
      k.metric.fields.map Prod.fst = a.fields.keys ∧
      (∀ key, k.metric.tag? key = a.tags key ∧ k.metric.hasTag key = (a.tags key).isSome ∧
        k.metric.field? key = a.fields.value key) ∧
      k.seriesKey = SeriesKey.of k.metric.name k.metric.tags ∧
      ∀ {name' : String} {fields' : List (String × FieldValue)} {timestamp' : Timestamp}
        {m' : Metric}, Metric.make name' fields' timestamp' = .ok m' → ∀ actions' : List Action,
        let k' := (ofMetric m').run actions'
        k'.metric.name = k.metric.name → (∀ key, k'.metric.tag? key = k.metric.tag? key) →
          k'.metric.tags = k.metric.tags ∧ k'.seriesKey = k.seriesKey := by
  intro k a
  have hk : k.metric.Records a := records_run (Metric.records_make hmake) actions
  have hkey : k.seriesKey = k.metric.seriesKey := ((fresh_none m).run actions).seriesKey_eq
  refine ⟨hk.name_ne, hk.tags.sorted, hk.fields.distinct, hk.fields.keys, fun key => ?_, hkey, ?_⟩
  · refine ⟨hk.tags.get? key, ?_, hk.fields.get? key⟩
    rw [← hk.tags.get? key]
    exact Tags.has_eq_isSome hk.tags.sorted key
  · -- Both tag lists are sorted, so the map decides them, and with the name the key.
    intro name' fields' timestamp' m' hmake' actions' k' hname htag
    have hk' : k'.metric.Records _ := records_run (Metric.records_make hmake') actions'
    have htags : k'.metric.tags = k.metric.tags :=
      Tags.eq_of_get? hk'.tags.sorted hk.tags.sorted htag
    have hkey' : k'.seriesKey = k'.metric.seriesKey :=
      ((fresh_none m').run actions').seriesKey_eq
    refine ⟨htags, ?_⟩
    rw [hkey', hkey]
    unfold Metric.seriesKey
    rw [hname, htags]

theorem run_as_map_reordered :
    ∃ m : Metric, Metric.make "cpu" [("busy", .int 3)] (.ofSeconds 1) = .ok m ∧
      ((ofMetric m).run [.addTag "zone" "b", .readKey, .addTag "host" "a", .append "_load",
        .addTag "zone" "c"]).seriesKey =
      ((ofMetric m).run [.setName "cpu_load", .addTags [("host", "a"), ("old", "x"), ("zone", "c")],
        .readKey, .removeTag "old", .addField "idle" (.int 97)]).seriesKey := by
  refine ⟨_, rfl, ?_⟩
  have hmake : Metric.make "cpu" [("busy", .int 3)] (.ofSeconds 1) = .ok _ := rfl
  obtain ⟨-, -, -, -, -, -, hall⟩ := run_as_map hmake [.setName "cpu_load",
    .addTags [("host", "a"), ("old", "x"), ("zone", "c")], .readKey, .removeTag "old",
    .addField "idle" (.int 97)]
  refine (hall hmake _ (by decide +kernel) fun key => ?_).2
  refine congrArg (Tags.get? key) ?_
  decide +kernel

end Keyed
end MetricAgent
