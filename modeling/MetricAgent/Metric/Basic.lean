import MetricAgent.Metric.Fields
import MetricAgent.Metric.Kind
import MetricAgent.Metric.Tags
import MetricAgent.Time.Timestamp

/-!
# Metrics

A metric is a name, tags, fields, a timestamp and a kind. `Metric.make`
refuses an empty name and a metric without fields, and no operation brings an
empty name back; only `retainFields` may leave a metric without fields, and
whoever calls it has to look. `WellFormed` collects what holds of every metric
that is passed on.
-/

namespace MetricAgent

structure Metric where
  name : String
  tags : Tags
  fields : Fields
  timestamp : Timestamp
  kind : MetricKind
deriving DecidableEq, Repr

inductive MetricError where
  | emptyName
  | noFields
deriving DecidableEq, Repr

def MetricError.message : MetricError → String
  | .emptyName => "metric name must not be empty"
  | .noFields => "metric must carry at least one field"

namespace Metric

/-- A metric of no kind and without tags. The name is looked at first. -/
def make (name : String) (fields : List (String × FieldValue)) (timestamp : Timestamp) :
    Except MetricError Metric :=
  if name = "" then .error .emptyName
  else
    let fields := Fields.ofList fields
    if fields.isEmpty then .error .noFields
    else .ok ⟨name, [], fields, timestamp, .untyped⟩

def setName (m : Metric) (name : String) : Metric :=
  if name = "" then m else { m with name := name }

def prepend (m : Metric) (text : String) : Metric := { m with name := text ++ m.name }

def append (m : Metric) (text : String) : Metric := { m with name := m.name ++ text }

def addTag (m : Metric) (key value : String) : Metric :=
  { m with tags := Tags.insert key value m.tags }

def addTags (m : Metric) (pairs : List (String × String)) : Metric :=
  { m with tags := Tags.insertAll pairs m.tags }

def addMissingTags (m : Metric) (pairs : List (String × String)) : Metric :=
  { m with tags := Tags.insertMissing pairs m.tags }

def removeTag (m : Metric) (key : String) : Metric := { m with tags := Tags.erase key m.tags }

def retainTags (m : Metric) (keep : String × String → Bool) : Metric :=
  { m with tags := m.tags.filter keep }

def filterTags (m : Metric) (keep : String → Bool) : Metric := m.retainTags fun t => keep t.1

def tag? (m : Metric) (key : String) : Option String := Tags.get? key m.tags

def hasTag (m : Metric) (key : String) : Bool := Tags.has key m.tags

def addField (m : Metric) (key : String) (value : FieldValue) : Metric :=
  { m with fields := Fields.insert key value m.fields }

def addFields (m : Metric) (pairs : List (String × FieldValue)) : Metric :=
  { m with fields := Fields.insertAll pairs m.fields }

/-- Keeps the fields that pass a test; there may be none left. -/
def retainFields (m : Metric) (keep : String × FieldValue → Bool) : Metric :=
  { m with fields := m.fields.filter keep }

def filterFields (m : Metric) (keep : String → Bool) : Metric := m.retainFields fun f => keep f.1

def field? (m : Metric) (key : String) : Option FieldValue := Fields.get? key m.fields

/-- What metrics have in common that were observed for one series at one time. -/
structure Identity where
  name : String
  tags : Tags
  timestamp : Timestamp
deriving DecidableEq, Repr

def identity (m : Metric) : Identity := ⟨m.name, m.tags, m.timestamp⟩

/-- Equality of metrics, where field values are compared as values. -/
def same (a b : Metric) : Bool :=
  a.name == b.name && a.tags == b.tags && a.timestamp == b.timestamp && a.kind == b.kind &&
    a.fields.length == b.fields.length &&
    (a.fields.zip b.fields).all fun (f, g) => f.1 == g.1 && f.2.same g.2

/-- What holds of a metric that is passed on: it has a name and a field, and no
key of a tag or of a field occurs twice. -/
structure WellFormed (m : Metric) : Prop where
  name_ne : m.name ≠ ""
  fields_ne : m.fields ≠ []
  tags_sorted : SortedPairs.Sorted m.tags
  fields_distinct : Fields.Distinct m.fields

@[simp] theorem make_empty (fields : List (String × FieldValue)) (t : Timestamp) :
    make "" fields t = .error .emptyName := rfl

end Metric

end MetricAgent
