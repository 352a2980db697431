import MetricAgent.Aggregator.Stage
import MetricAgent.Config.Loading
import MetricAgent.Pipeline.Outlet
import MetricAgent.Plugin.Registry
import MetricAgent.Processor.Dispatcher
import MetricAgent.Source.Gatherer

/-!
# Pipelines

A pipeline is built from a configuration and the plugins of a registry:

    sources → processors → aggregators → outputs

Every source gathers on a ticker of its own, and every output flushes on one.
What is built stands still; `Pipeline.Run` sets it going.
-/

namespace MetricAgent

inductive SourcePhase where
  | waiting (deadline : Duration)
  /-- It gathers until some milliseconds from the start. -/
  | gathering (stop : Nat) (work : Gather)
  | stopped

structure ScheduledSource where
  source : Source
  gatherer : Gatherer
  ticker : Ticker
  phase : SourcePhase

/-- A processor with what runs it: nothing else, or a dispatcher. -/
inductive ProcessorStage where
  | inline (p : Processor)
  | spread (p : Processor) (d : Dispatcher)

namespace ProcessorStage

/-- The stage of a processor. More than one worker needs a dispatcher. -/
def make (p : Processor) (workers : Nat) (ordered : Bool) (queueSize : Nat) : ProcessorStage :=
  if 1 < workers then .spread p (.make ordered workers queueSize) else .inline p

def feed (ms : List Metric) : ProcessorStage → ProcessorStage × List Metric
  | .inline p => (.inline p, ms.flatMap p.yields)
  | .spread p d =>
    let d := d.enqueueAll p ms
    (.spread p { d with sent := [] }, d.sent)

def feedAll (ms : List Metric) : List ProcessorStage → List ProcessorStage × List Metric
  | [] => ([], ms)
  | s :: rest =>
    let (s, ms) := s.feed ms
    let (rest, ms) := feedAll ms rest
    (s :: rest, ms)

@[simp] theorem feedAll_nil (ms : List Metric) : feedAll ms [] = ([], ms) := rfl

end ProcessorStage

/-- A pipeline, and the time of its clock when it was built. -/
structure Pipeline where
  base : Duration
  sources : List ScheduledSource
  processors : List ProcessorStage
  aggregators : List (Running Aggregator)
  outlets : List Outlet

inductive BuildError where
  | plugin (e : PluginError)
  | filter (e : Glob.Failure)
  | aggregator (e : AggregatorError)
  | ticker (e : ScheduleError)

namespace BuildError

def message? : BuildError → Option String
  | .plugin e => e.message?
  | .filter e => some e.message
  | .aggregator e => some e.message
  | .ticker e => some e.message

def errorClass (_ : BuildError) : ErrorClass := .fatalConfig

end BuildError

namespace Pipeline

def buildSource (c : Config) (r : Registry) (now : Duration) (s : SourceConfig) :
    Except BuildError ScheduledSource := do
  let source ← (r.source s.plugin s.options).mapError .plugin
  let filter ← s.filter.compile.mapError .filter
  let interval := c.intervalOf s
  let ticker ← (Ticker.make interval (s.collectionJitter.getD c.agent.collectionJitter)
    c.agent.roundInterval now).mapError .ticker
  let settings : GatherSettings :=
    { name := s.plugin
      id := s.id
      interval := interval
      precision := some (s.precision.getD c.agent.precision)
      rename := s.name.rename
      tags := s.tags
      globalTags := c.agent.globalTags
      filter := filter }
  return ⟨source, Gatherer.make settings, ticker, .stopped⟩

def buildProcessor (r : Registry) (p : ProcessorConfig) : Except BuildError ProcessorStage := do
  let processor ← (r.processor p.plugin p.options).mapError .plugin
  return .make processor p.workers p.ordered p.queueSize

/-- Builds an aggregator. Its first window begins now, or at the last multiple
of its period. -/
def buildAggregator (c : Config) (r : Registry) (now : Duration) (a : AggregatorConfig) :
    Except BuildError (Running Aggregator) := do
  let aggregator ← (r.aggregator a.plugin a.options).mapError .plugin
  let filter ← a.filter.compile.mapError .filter
  let now := Timestamp.ofDuration now
  let settings : AggregatorSettings :=
    { name := a.plugin
      id := a.id
      period := a.period
      delay := a.delay
      grace := a.grace
      withholds := a.withholds
      rename := a.name.rename
      tags := a.tags
      filter := filter }
  (Running.make settings aggregator
    (if c.agent.roundInterval then now.truncate a.period else now)).mapError .aggregator

def buildOutlet (c : Config) (r : Registry) (files : Files) (now : Duration) (o : OutputConfig) :
    Except BuildError Outlet := do
  let sink ← (r.sink o.plugin o.options).mapError .plugin
  let filter ← o.filter.compile.mapError .filter
  let ticker ← (Ticker.make (c.flushIntervalOf o) (o.flushJitter.getD c.agent.flushJitter) false
    now).mapError .ticker
  let settings : OutputSettings :=
    { name := o.plugin
      id := o.id
      batchSize := c.batchSizeOf o
      bufferLimit := c.bufferLimitOf o
      rename := o.name.rename
      filter := filter }
  return .make (Output.make settings sink.maxBatch) sink files ticker

def build (c : Config) (r : Registry) (files : Files) (now : Duration) :
    Except BuildError Pipeline := do
  return {
    base := now
    sources := ← c.sources.mapM (buildSource c r now)
    processors := ← c.processors.mapM (buildProcessor r)
    aggregators := ← c.aggregators.mapM (buildAggregator c r now)
    outlets := ← c.outputs.mapM (buildOutlet c r files now) }

end Pipeline

end MetricAgent
