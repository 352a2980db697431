import MetricAgent.Metric.Basic

/-!
# Grouping observations of one moment

A grouper gathers the fields that were observed for the same name, tags and
timestamp into one metric. Its entries stay in the order of first sight, and
an entry keeps the kind of the metric that opened it. An index gives the place
of an entry under its identity.
-/

namespace MetricAgent

/-- Metrics with pairwise different identities, in the order of first sight. -/
structure Grouper where
  index : List (Metric.Identity × Nat)
  entries : List Metric
deriving DecidableEq, Repr

namespace Grouper

def empty : Grouper := ⟨[], []⟩

/-- Adds the fields of a metric to its entry, or the metric as a new entry. -/
def addMetric (g : Grouper) (m : Metric) : Grouper :=
  match g.index.lookup m.identity with
  | some i => { g with entries := g.entries.modify i fun e => e.addFields m.fields }
  | none => ⟨(m.identity, g.entries.length) :: g.index, g.entries ++ [m]⟩

def add (g : Grouper) (name : String) (tags : List (String × String)) (timestamp : Timestamp)
    (key : String) (value : FieldValue) : Except MetricError Grouper := do
  let m ← Metric.make name [(key, value)] timestamp
  return g.addMetric (m.addTags tags)

def size (g : Grouper) : Nat := g.entries.length

@[simp] theorem entries_empty : empty.entries = [] := rfl

theorem addMetric_of_lookup {g : Grouper} {m : Metric} {i : Nat}
    (h : g.index.lookup m.identity = some i) :
    g.addMetric m = { g with entries := g.entries.modify i fun e => e.addFields m.fields } := by
  simp [addMetric, h]

theorem addMetric_of_lookup_eq_none {g : Grouper} {m : Metric}
    (h : g.index.lookup m.identity = none) :
    g.addMetric m = ⟨(m.identity, g.entries.length) :: g.index, g.entries ++ [m]⟩ := by
  simp [addMetric, h]

end Grouper

end MetricAgent
