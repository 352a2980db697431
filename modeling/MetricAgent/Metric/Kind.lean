/-!
# Metric kinds

The kind of a metric says how its values are to be read. It never enters the
identity of a series.
-/

namespace MetricAgent

inductive MetricKind where
  | untyped
  | counter
  | gauge
  | summary
  | histogram
deriving DecidableEq, Repr, Inhabited

namespace MetricKind

def all : List MetricKind := [.untyped, .counter, .gauge, .summary, .histogram]

def name : MetricKind → String
  | .untyped => "untyped"
  | .counter => "counter"
  | .gauge => "gauge"
  | .summary => "summary"
  | .histogram => "histogram"

def ofName? (s : String) : Option MetricKind := all.find? fun k => k.name == s

@[simp] theorem ofName?_name (k : MetricKind) : ofName? k.name = some k := by
  cases k <;> decide

end MetricKind

end MetricAgent
