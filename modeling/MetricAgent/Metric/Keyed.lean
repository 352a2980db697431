import MetricAgent.Metric.SeriesKey

/-!
# Metrics that remember their series key

Hashing a series is only worth doing once, so a metric may carry its key along
after the first time it was asked for. Each operation that can change the name
or the tags forgets the key, and those that change nothing, or nothing that is
hashed, keep it. `Keyed.Action` lists the operations and `Keyed.apply` runs
one, so a history of a metric is a list of actions.
-/

namespace MetricAgent

/-- A metric and the key of its series, once it has been computed. -/
structure Keyed where
  metric : Metric
  key : Option UInt64
deriving DecidableEq, Repr

namespace Keyed

inductive Action where
  | addTag (key value : String)
  | addTags (pairs : List (String × String))
  | removeTag (key : String)
  | retainTags (keep : String × String → Bool)
  | filterTags (keep : String → Bool)
  | addField (key : String) (value : FieldValue)
  | retainFields (keep : String × FieldValue → Bool)
  | filterFields (keep : String → Bool)
  | setName (name : String)
  | prepend (text : String)
  | append (text : String)
  | setKind (kind : MetricKind)
  | setTimestamp (timestamp : Timestamp)
  | readKey
  | clone

def ofMetric (m : Metric) : Keyed := ⟨m, none⟩

def seriesKey (k : Keyed) : UInt64 := k.key.getD k.metric.seriesKey

/-- Keeps the tags that pass a test, which sees every tag once. -/
def retainTags (k : Keyed) (keep : String × String → Bool) : Keyed :=
  let m := k.metric.retainTags keep
  ⟨m, if m.tags.length = k.metric.tags.length then k.key else none⟩

def apply (k : Keyed) : Action → Keyed
  | .addTag key value => ⟨k.metric.addTag key value, none⟩
  | .addTags pairs => ⟨k.metric.addTags pairs, if pairs.isEmpty then k.key else none⟩
  | .removeTag key => ⟨k.metric.removeTag key, if k.metric.hasTag key then none else k.key⟩
  | .retainTags keep => k.retainTags keep
  | .filterTags keep => k.retainTags fun t => keep t.1
  | .addField key value => ⟨k.metric.addField key value, k.key⟩
  | .retainFields keep => ⟨k.metric.retainFields keep, k.key⟩
  | .filterFields keep => ⟨k.metric.filterFields keep, k.key⟩
  | .setName name => ⟨k.metric.setName name, if name = "" then k.key else none⟩
  | .prepend text => ⟨k.metric.prepend text, if text = "" then k.key else none⟩
  | .append text => ⟨k.metric.append text, if text = "" then k.key else none⟩
  | .setKind kind => ⟨{ k.metric with kind := kind }, k.key⟩
  | .setTimestamp timestamp => ⟨{ k.metric with timestamp := timestamp }, k.key⟩
  | .readKey => ⟨k.metric, some k.seriesKey⟩
  | .clone => k

def run (k : Keyed) (actions : List Action) : Keyed := actions.foldl apply k

@[simp] theorem run_nil (k : Keyed) : k.run [] = k := rfl

@[simp] theorem run_cons (k : Keyed) (a : Action) (as : List Action) :
    k.run (a :: as) = (k.apply a).run as := rfl

end Keyed

end MetricAgent
