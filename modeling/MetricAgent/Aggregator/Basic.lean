import MetricAgent.Metric.Grouper
import MetricAgent.Metric.SeriesKey

/-!
# Aggregators

An aggregator takes metrics in and, when it is pushed, gives out what it has
made of them. Everything around aggregators works for any `Aggregating` type;
`Aggregator` is the one of this library. `merge` groups the metrics of a
window. `final` remembers the last metric of every series, across windows, and
gives it out once it is older than a timeout.
-/

namespace MetricAgent

class Aggregating (α : Type) where
  observe : α → Metric → α
  /-- Gives out what has been made of the metrics, and begins the next window. -/
  emit : α → Timestamp → List Metric × α

/-- The last metric of a series, and the place of the series among all that
came. -/
structure Latest where
  place : Nat
  metric : Metric
deriving DecidableEq, Repr

/-- The last metrics of the series that have not been given out since, under
their keys, and the place of the next series. The memory itself has no order
that means anything; what is given out is sorted by place. -/
structure LastMetrics where
  memory : List (UInt64 × Latest)
  next : Nat
deriving DecidableEq, Repr

namespace LastMetrics

def empty : LastMetrics := ⟨[], 0⟩

/-- Remembers a metric as the last one of its series, which keeps its place. -/
def remember (key : UInt64) (m : Metric) (l : LastMetrics) : LastMetrics :=
  if (l.memory.lookup key).isSome then
    { l with memory := l.memory.map fun e =>
        if e.1 = key then (key, { e.2 with metric := m }) else e }
  else ⟨(key, ⟨l.next, m⟩) :: l.memory, l.next + 1⟩

def isExpired (timeout : Duration) (now : Timestamp) (m : Metric) : Bool :=
  timeout < now.since m.timestamp

/-- What is given out for the last metric of a series: its fields, each marked
in its key. The metric has no kind any more. -/
def finished? (m : Metric) : Option Metric :=
  match Metric.make m.name (m.fields.map fun f => (f.1 ++ "_final", f.2)) m.timestamp with
  | .ok f => some (f.addTags m.tags)
  | .error _ => none

/-- Remembered metrics in the order in which their series came. -/
def inOrder (latest : List Latest) : List Metric :=
  (latest.mergeSort fun a b => a.place ≤ b.place).map Latest.metric

def push (timeout : Duration) (now : Timestamp) (l : LastMetrics) : List Metric × LastMetrics :=
  let expired := l.memory.filter fun e => isExpired timeout now e.2.metric
  ((inOrder (expired.map Prod.snd)).filterMap finished?,
    { l with memory := l.memory.filter fun e => !isExpired timeout now e.2.metric })

end LastMetrics

inductive Aggregator where
  | merge (groups : Grouper)
  | final (timeout : Duration) (last : LastMetrics)

namespace Aggregator

def observe (a : Aggregator) (m : Metric) : Aggregator :=
  match a with
  | .merge groups => .merge (groups.addMetric m)
  | .final timeout last => .final timeout (last.remember m.seriesKey m)

def pushed (a : Aggregator) (now : Timestamp) : List Metric × Aggregator :=
  match a with
  | .merge groups => (groups.entries, a)
  | .final timeout last =>
    let (out, kept) := last.push timeout now
    (out, .final timeout kept)

def reset : Aggregator → Aggregator
  | .merge _ => .merge Grouper.empty
  | .final timeout last => .final timeout last

instance : Aggregating Aggregator where
  observe := observe
  emit a now := let (out, a) := a.pushed now; (out, a.reset)

end Aggregator

end MetricAgent
