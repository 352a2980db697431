import MetricAgent.Config.Basic

/-!
# Checking a configuration

A configuration that can be read may still be one that cannot be run. No two
plugins of a section may have one identifier, nothing that repeats may do so
without an interval, and a buffer must hold a batch. The first violation is
reported, in the order of the sections.
-/

namespace MetricAgent

inductive ConfigViolation where
  | duplicateId (part id : String)
  /-- Something that must not be zero, by its name. -/
  | zero (what : String)
  | bufferBelowBatch (plugin : String) (limit batch : Nat)
deriving DecidableEq, Repr

def ConfigViolation.message : ConfigViolation → String
  | .duplicateId part id => "Duplicate " ++ part ++ " ID found: " ++ id
  | .zero what => what ++ " must be greater than zero"
  | .bufferBelowBatch plugin limit batch =>
    "metric_buffer_limit " ++ toString limit ++ " of output " ++ plugin ++
      " is smaller than its metric_batch_size " ++ toString batch

namespace Config

def firstRepeat (seen : List String) : List (Option String) → Option String
  | [] => none
  | none :: rest => firstRepeat seen rest
  | some id :: rest => if seen.contains id then some id else firstRepeat (id :: seen) rest

def checkIds (part : String) (ids : List (Option String)) : Except ConfigViolation Unit :=
  match firstRepeat [] ids with
  | some id => .error (.duplicateId part id)
  | none => .ok ()

def checkNonzero (isZero : Bool) (what : String) : Except ConfigViolation Unit :=
  if isZero then .error (.zero what) else .ok ()

def checkSource (s : SourceConfig) : Except ConfigViolation Unit :=
  checkNonzero (s.interval.any Duration.isZero) ("interval of source " ++ s.plugin)

def checkProcessor (p : ProcessorConfig) : Except ConfigViolation Unit :=
  checkNonzero (p.queueSize == 0) ("queue_size of processor " ++ p.plugin)

def checkAggregator (a : AggregatorConfig) : Except ConfigViolation Unit :=
  checkNonzero a.period.isZero ("period of aggregator " ++ a.plugin)

def checkOutput (c : Config) (o : OutputConfig) : Except ConfigViolation Unit := do
  checkNonzero (o.flushInterval.any Duration.isZero) ("flush_interval of output " ++ o.plugin)
  let batch := c.batchSizeOf o
  let limit := c.bufferLimitOf o
  checkNonzero (batch == 0) ("metric_batch_size of output " ++ o.plugin)
  if limit < batch then throw (.bufferBelowBatch o.plugin limit batch)

def checkAll {α : Type} (check : α → Except ConfigViolation Unit) :
    List α → Except ConfigViolation Unit
  | [] => .ok ()
  | x :: xs => do
    check x
    checkAll check xs

def check (c : Config) : Except ConfigViolation Unit := do
  checkIds "source" (c.sources.map SourceConfig.id)
  checkIds "processor" (c.processors.map ProcessorConfig.id)
  checkIds "aggregator" (c.aggregators.map AggregatorConfig.id)
  checkIds "output" (c.outputs.map OutputConfig.id)
  checkNonzero c.agent.interval.isZero "agent.interval"
  checkNonzero c.agent.flushInterval.isZero "agent.flush_interval"
  checkAll checkSource c.sources
  checkAll checkProcessor c.processors
  checkAll checkAggregator c.aggregators
  checkAll c.checkOutput c.outputs

end Config

end MetricAgent
