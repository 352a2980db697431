import MetricAgent.Pipeline.Basic

/-!
# Running a pipeline

A run is a sequence of moments, counted in milliseconds from the start. At each
of them something becomes due: a gather ends, a source ticks, an aggregator
closes its window, an output flushes. Timers are as fine as a millisecond and
never early.

What a gather measures passes through the whole pipeline before a flush loop
runs; the loops that were woken then run in the order in which they were woken.

Stopping takes steps. The sources stop first, where a gather that has begun
also ends, then the aggregators push what they hold, then the flush loops end,
and at last every output flushes what is left and closes.
-/

namespace MetricAgent

structure PipelineRun where
  pipeline : Pipeline
  /-- The milliseconds from the start. -/
  time : Nat
  log : List LogEntry
  stopping : Bool

namespace PipelineRun

def clockAt (base : Duration) (time : Nat) : Duration :=
  Duration.ofNanos (base.nanos + time * 1000000)

def now (r : PipelineRun) : Duration := clockAt r.pipeline.base r.time

def timestamp (r : PipelineRun) : Timestamp := Timestamp.ofDuration r.now

/-- The first millisecond that is not before a time of the clock, which lies
some nanoseconds ahead of the start. -/
def moment (nanos : Nat) : Nat := (nanos + (1000000 - 1)) / 1000000

def momentOf (base deadline : Duration) : Nat := moment (deadline.nanos - base.nanos)

def momentOfTimestamp (base : Duration) (t : Timestamp) : Nat :=
  moment (t.nanos - (Timestamp.ofDuration base).nanos).toNat

inductive Due where
  | gathered (source : Nat)
  | gather (source : Nat)
  | push
  | flush (outlet : Nat)

/-- Hands a metric to each outlet, and says which of them were woken. -/
def deliver (m : Metric) : Nat → List Outlet → List Outlet × List Nat
  | _, [] => ([], [])
  | i, o :: rest =>
    let (o, woken) := o.accept m
    let (rest, others) := deliver m (i + 1) rest
    (o :: rest, if woken then i :: others else others)

def deliverAll : List Metric → List Outlet → List Outlet × List Nat
  | [], outlets => (outlets, [])
  | m :: ms, outlets =>
    let (outlets, woken) := deliver m 0 outlets
    let (outlets, further) := deliverAll ms outlets
    (outlets, woken ++ further)

def onOutlet (r : PipelineRun) (i : Nat) (change : Outlet → Outlet × List LogEntry) : PipelineRun :=
  match r.pipeline.outlets[i]? with
  | none => r
  | some o =>
    let (o, log) := change o
    { r with
      pipeline := { r.pipeline with outlets := r.pipeline.outlets.set i o }
      log := r.log ++ log }

def sendOut (r : PipelineRun) (ms : List Metric) : PipelineRun :=
  let (outlets, woken) := deliverAll ms r.pipeline.outlets
  let r := { r with pipeline := { r.pipeline with outlets := outlets } }
  woken.foldl (fun r i => r.onOutlet i fun o => o.answerWake r.time r.now) r

def feed (r : PipelineRun) (ms : List Metric) : PipelineRun :=
  let (processors, ms) := ProcessorStage.feedAll ms r.pipeline.processors
  let (aggregators, ms) := AggregatorStage.feed r.pipeline.aggregators r.timestamp ms
  { r with
    pipeline := { r.pipeline with
      processors := processors
      aggregators := aggregators } }.sendOut ms

def onAggregators (r : PipelineRun) (e : StageEvent) : PipelineRun :=
  let (aggregators, ms) := AggregatorStage.step r.pipeline.aggregators r.timestamp e
  { r with pipeline := { r.pipeline with aggregators := aggregators } }.sendOut ms

/-- Lets a source wait for its next tick, unless the sources are to stop. Past
the end of time there is none, and the source stops too. -/
def awaitTick (s : ScheduledSource) (stopping : Bool) (now : Duration) : ScheduledSource :=
  if stopping then { s with phase := .stopped }
  else match s.ticker.begin? now Duration.zero with
    | some (ticker, deadline) => { s with ticker := ticker, phase := .waiting deadline }
    | none => { s with phase := .stopped }

def withSource (r : PipelineRun) (i : Nat) (s : ScheduledSource) : PipelineRun :=
  { r with pipeline := { r.pipeline with sources := r.pipeline.sources.set i s } }

/-- Ends a gather: what was measured passes through the pipeline. `wall` is the
time of measurements that have no time of their own. -/
def endGather (r : PipelineRun) (wall : Timestamp) (i : Nat) (s : ScheduledSource) (work : Gather) :
    PipelineRun :=
  let (gatherer, _) := s.gatherer.gather work r.timestamp wall
  let (accumulator, ms) := gatherer.accumulator.receive
  let s := { s with gatherer := { gatherer with accumulator := accumulator } }
  (r.withSource i (awaitTick s r.stopping r.now)).feed ms

/-- Begins a gather. One that need not wait ends at once. -/
def beginGather (r : PipelineRun) (wall : Timestamp) (i : Nat) (s : ScheduledSource) : PipelineRun :=
  let s := { s with ticker := s.ticker.finish }
  let work := s.source s.gatherer.gathers
  if work.stall.isZero then r.endGather wall i s work
  else r.withSource i { s with phase := .gathering (r.time + moment work.stall.nanos) work }

def handle (r : PipelineRun) (wall : Timestamp) : Due → PipelineRun
  | .gathered i =>
    match r.pipeline.sources[i]? with
    | some s => match s.phase with
      | .gathering _ work => r.endGather wall i s work
      | _ => r
    | none => r
  | .gather i =>
    match r.pipeline.sources[i]? with
    | some s => r.beginGather wall i s
    | none => r
  | .push => r.onAggregators .timer
  | .flush i => r.onOutlet i fun o => o.tick r.time r.now

def dueOfSource (base : Duration) (s : ScheduledSource) (i : Nat) : Option (Nat × Due) :=
  match s.phase with
  | .waiting deadline => some (momentOf base deadline, .gather i)
  | .gathering stop _ => some (stop, .gathered i)
  | .stopped => none

def dueOfOutlet (base : Duration) (o : Outlet) (i : Nat) : Option (Nat × Due) :=
  o.nextFlush.map fun deadline => (momentOf base deadline, .flush i)

def dues (p : Pipeline) : List (Nat × Due) :=
  (p.sources.zipIdx.filterMap fun (s, i) => dueOfSource p.base s i) ++
    ((AggregatorStage.deadline? p.aggregators).map fun t =>
      (momentOfTimestamp p.base t, Due.push)).toList ++
    p.outlets.zipIdx.filterMap fun (o, i) => dueOfOutlet p.base o i

def firstDue : List (Nat × Due) → Option (Nat × Due)
  | [] => none
  | d :: ds =>
    match firstDue ds with
    | some e => if e.1 < d.1 then some e else some d
    | none => some d

/-- Does what becomes due up to a moment, in at most `fuel` steps. -/
def advanceWithin (wall : Timestamp) (stop : Nat) : Nat → PipelineRun → PipelineRun
  | 0, r => { r with time := max r.time stop }
  | fuel + 1, r =>
    match firstDue (dues r.pipeline) with
    | some (time, due) =>
      if time ≤ stop then
        advanceWithin wall stop fuel ({ r with time := max r.time time }.handle wall due)
      else { r with time := max r.time stop }
    | none => { r with time := max r.time stop }

/-- An upper bound of what becomes due in some milliseconds. Nothing becomes due
again before the next one, except that a gather may also end in the one in which
it began. -/
def dueBound (p : Pipeline) (span : Nat) : Nat :=
  (span + 1) * (2 * p.sources.length + p.outlets.length + 1)

def advance (r : PipelineRun) (wall : Timestamp) (stop : Nat) : PipelineRun :=
  advanceWithin wall stop (dueBound r.pipeline (stop - r.time)) r

def start (p : Pipeline) : PipelineRun :=
  { pipeline := { p with
      sources := p.sources.map fun s => awaitTick s false p.base
      outlets := p.outlets.map fun o => o.await p.base }
    time := 0
    log := []
    stopping := false }

/-- Connects outlets in order up to the first one that fails. Those before it
are closed again. -/
def connectAll (before : List Outlet) : List Outlet → List LogEntry × Option OutputError
  | [] => ([], none)
  | o :: rest =>
    match o.connect 0 with
    | (some e, log) => (log ++ before.reverse.flatMap fun b => b.close 0, some e)
    | (none, log) =>
      let (further, e) := connectAll (o :: before) rest
      (log ++ further, e)

/-- Tells the sources to stop. Those that wait do so at once. -/
def stopSources (r : PipelineRun) : PipelineRun :=
  let stop (s : ScheduledSource) : ScheduledSource := match s.phase with
    | .waiting _ => { s with phase := .stopped }
    | _ => s
  { r with
    pipeline := { r.pipeline with sources := r.pipeline.sources.map stop }
    stopping := true }

def lastGather (r : PipelineRun) : Nat :=
  r.pipeline.sources.foldl (fun t s => match s.phase with
    | .gathering stop _ => max t stop
    | _ => t) r.time

def stopLoops (r : PipelineRun) : PipelineRun :=
  { r with pipeline := { r.pipeline with
      outlets := r.pipeline.outlets.map fun o => { o with nextFlush := none, woken := false } } }

def finishOutlets (r : PipelineRun) : PipelineRun :=
  (List.range r.pipeline.outlets.length).foldl (fun r i => r.onOutlet i fun o => o.finish r.time) r

def finish (r : PipelineRun) : PipelineRun := (r.onAggregators .stop).stopLoops.finishOutlets

def stats (r : PipelineRun) : List OutputStats :=
  r.pipeline.outlets.map fun o => o.output.stats

/-- Runs up to each of some moments in turn, and reads the counts there. -/
def probe (r : PipelineRun) (wall : Timestamp) : List Nat → PipelineRun × List (List OutputStats)
  | [] => (r, [])
  | t :: ts =>
    let r := r.advance wall t
    let (last, further) := probe r wall ts
    (last, r.stats :: further)

end PipelineRun

structure RunReport where
  failure : Option OutputError
  log : List LogEntry
  outputs : List Output
  probes : List (List OutputStats)

open PipelineRun in
/-- Runs a pipeline for some milliseconds and then stops it. The counts are read
at given moments. -/
def Pipeline.run (p : Pipeline) (wall : Timestamp) (stop : Nat) (probes : List Nat) : RunReport :=
  let outputs (p : Pipeline) : List Output := p.outlets.map Outlet.output
  match connectAll [] p.outlets with
  | (log, some e) =>
    ⟨some e, log, outputs p, probes.map fun _ => p.outlets.map fun o => o.output.stats⟩
  | (log, none) =>
    let r := { start p with log := log }
    let (r, early) := r.probe wall (probes.filter (· ≤ stop))
    let r := (r.advance wall stop).stopSources
    let last := r.lastGather
    let late := probes.filter (stop < ·)
    let (r, between) := r.probe wall (late.filter (· ≤ last))
    let r := (r.advance wall last).finish
    ⟨none, r.log, outputs r.pipeline,
      early ++ between ++ (late.filter (last < ·)).map fun _ => r.stats⟩

end MetricAgent
