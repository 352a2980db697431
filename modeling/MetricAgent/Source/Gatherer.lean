import MetricAgent.Filter
import MetricAgent.Metric.Rename
import MetricAgent.Source.Accumulator
import MetricAgent.Telemetry

/-!
# Gathering from a source

A source is known by its gathers: what it does the first time it is asked,
the second time, and so on. A gatherer asks one source and keeps the counts.
Its metrics are renamed, then get the tags of the source and of the agent that
they do not carry yet, and are filtered last.
-/

namespace MetricAgent

/-- One gather of a source: it waits, then makes calls, which may depend on
the time at which it makes them, and fails in the end or not. -/
structure Gather where
  stall : Duration
  calls : Timestamp → List Call
  failure : Option String

/-- A source: its gathers by number, from zero. -/
abbrev Source := Nat → Gather

structure GatherSettings where
  name : String
  id : Option String
  interval : Duration
  precision : Option Duration
  rename : Rename
  tags : List (String × String)
  globalTags : List (String × String)
  filter : Filter

namespace GatherSettings

/-- Changes a metric on its way out, or refuses it. -/
def maker (s : GatherSettings) (m : Metric) : Option Metric :=
  s.filter.apply (((s.rename.apply m).addMissingTags s.tags).addMissingTags s.globalTags)

/-- The precision in effect: the configured one, or else the one that suits the
interval. None at all counts as not configured. -/
def effectivePrecision (s : GatherSettings) : Duration :=
  Precision.bounded (match s.precision with
    | some p => if p.isZero then Precision.ofInterval s.interval else p
    | none => Precision.ofInterval s.interval)

end GatherSettings

structure GatherStats where
  gathers : Nat
  metrics : Nat
  errors : Nat
deriving DecidableEq, Repr

structure Gatherer where
  name : String
  id : Option String
  precision : Duration
  accumulator : Accumulator
  gathers : Nat
  errors : Nat
  telemetry : Telemetry

namespace Gatherer

def make (s : GatherSettings) : Gatherer :=
  { name := s.name
    id := s.id
    precision := s.effectivePrecision
    accumulator := Accumulator.make s.maker
    gathers := 0
    errors := 0
    telemetry := Telemetry.make "source" s.name s.id }

def stats (g : Gatherer) : GatherStats := ⟨g.gathers, g.accumulator.made, g.errors⟩

/-- Runs one gather, where `clock` is the time by which the source makes its
calls and `now` is the time of measurements without one. Gives the number of
errors too: those recorded, and the failure. -/
def gather (g : Gatherer) (work : Gather) (clock now : Timestamp) : Gatherer × Nat :=
  let called := g.accumulator.callAll g.precision now (work.calls clock)
  let (accumulator, errors) :=
    (match work.failure with
      | some text => called.addError text
      | none => called).takeErrors
  let passed := accumulator.made - g.accumulator.made
  let telemetry := if 0 < passed then g.telemetry.count "metrics_gathered" passed else g.telemetry
  ({ g with
    accumulator := accumulator
    gathers := g.gathers + 1
    errors := g.errors + errors.length
    telemetry := (telemetry.count "gathers" 1).count "gather_errors" errors.length },
    errors.length)

end Gatherer

end MetricAgent
