import MetricAgent.Aggregator.Basic
import MetricAgent.Aggregator.Window
import MetricAgent.Filter
import MetricAgent.Metric.Rename
import MetricAgent.Telemetry

/-!
# Running aggregators

A running aggregator offers its aggregator the metrics of the current window:
those that its filter selects and leaves with fields and whose timestamps lie
between the start of the window, less some grace, and its deadline. A push
gives out renamed and tagged metrics and moves the window on.
-/

namespace MetricAgent

structure AggregatorSettings where
  name : String
  id : Option String
  period : Duration
  delay : Duration
  grace : Duration
  /-- Whether a metric that it selects goes no further. -/
  withholds : Bool
  rename : Rename
  tags : List (String × String)
  filter : Filter

structure AggregatorStats where
  aggregated : Nat
  filtered : Nat
  dropped : Nat
  pushed : Nat
deriving DecidableEq, Repr

structure Running (α : Type) where
  name : String
  aggregator : α
  window : Window
  grace : Duration
  withholds : Bool
  rename : Rename
  tags : List (String × String)
  filter : Filter
  stats : AggregatorStats
  telemetry : Telemetry

inductive AggregatorError where
  | zeroPeriod
deriving DecidableEq, Repr

def AggregatorError.message : AggregatorError → String
  | .zeroPeriod => "aggregation period must be greater than zero"

inductive Offer where
  /-- The filter does not select it. -/
  | ignored
  /-- The filter leaves no field of it. -/
  | filtered
  /-- Its timestamp lies outside of the window. -/
  | dropped
  | aggregated (m : Metric)

namespace Running

variable {α : Type}

def make (s : AggregatorSettings) (aggregator : α) (start : Timestamp) :
    Except AggregatorError (Running α) :=
  if s.period.isZero then .error .zeroPeriod
  else .ok
    { name := s.name
      aggregator := aggregator
      window := Window.make start s.period s.delay
      grace := s.grace
      withholds := s.withholds
      rename := s.rename
      tags := s.tags
      filter := s.filter
      stats := ⟨0, 0, 0, 0⟩
      telemetry := Telemetry.make "aggregator" s.name s.id }

def deadline (a : Running α) : Timestamp := a.window.deadline

def covers (a : Running α) (t : Timestamp) : Bool :=
  a.window.start.sub a.grace ≤ t && t ≤ a.deadline

def offer (a : Running α) (m : Metric) : Offer :=
  if !a.filter.select m then .ignored
  else
    let m := a.filter.modify m
    if m.fields.isEmpty then .filtered
    else if !a.covers m.timestamp then .dropped
    else .aggregated m

variable [Aggregating α]

/-- Offers a metric, and says whether it is to be withheld from the outputs. -/
def add (a : Running α) (m : Metric) : Running α × Bool :=
  match a.offer m with
  | .ignored => (a, false)
  | .filtered =>
    ({ a with
      stats := { a.stats with filtered := a.stats.filtered + 1 }
      telemetry := a.telemetry.count "metrics_filtered" 1 }, a.withholds)
  | .dropped =>
    ({ a with
      stats := { a.stats with dropped := a.stats.dropped + 1 }
      telemetry := a.telemetry.count "metrics_dropped" 1 }, a.withholds)
  | .aggregated m =>
    ({ a with
      aggregator := Aggregating.observe a.aggregator m
      stats := { a.stats with aggregated := a.stats.aggregated + 1 }
      telemetry := a.telemetry.count "metrics_aggregated" 1 }, a.withholds)

def finish (a : Running α) (m : Metric) : Metric := (a.rename.apply m).addMissingTags a.tags

/-- Pushes the window and moves on to the first one that is not due. There is
no result where there is no such window. -/
def push? (a : Running α) (now : Timestamp) : Option (Running α × List Metric) := do
  let window ← a.window.next? now
  let (out, aggregator) := Aggregating.emit a.aggregator now
  return ({ a with
    aggregator := aggregator
    window := window
    stats := { a.stats with pushed := a.stats.pushed + out.length }
    telemetry := a.telemetry.count "metrics_pushed" out.length }, out.map a.finish)

end Running

end MetricAgent
