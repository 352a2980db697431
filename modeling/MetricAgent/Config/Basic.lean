import MetricAgent.Filter
import MetricAgent.Metric.Rename
import MetricAgent.Net.SocketAddress
import MetricAgent.Yaml.Value

/-!
# The configuration

What a user can say about the agent and about each of its plugins. A plugin
may have an identifier, which has to be unique in its section. What a source or
an output leaves open is taken from the agent.
-/

namespace MetricAgent

structure AgentConfig where
  interval : Duration
  /-- Whether gathers happen at multiples of the interval. -/
  roundInterval : Bool
  collectionJitter : Duration
  flushInterval : Duration
  flushJitter : Duration
  precision : Duration
  batchSize : Nat
  bufferLimit : Nat
  globalTags : Tags

def AgentConfig.default : AgentConfig where
  interval := Duration.ofSeconds 10
  roundInterval := true
  collectionJitter := Duration.zero
  flushInterval := Duration.ofSeconds 10
  flushJitter := Duration.zero
  precision := Duration.zero
  batchSize := 1000
  bufferLimit := 10000
  globalTags := []

structure TelemetryConfig where
  address : SocketAddress
  globalLabels : Tags

structure NameConfig where
  name : Option String
  before : Option String
  after : Option String
deriving DecidableEq, Repr

namespace NameConfig

def empty : NameConfig := ⟨none, none, none⟩

/-- The renaming. What is left open does not change the name. -/
def rename (c : NameConfig) : Rename := ⟨c.name.getD "", c.before.getD "", c.after.getD ""⟩

end NameConfig

structure SourceConfig where
  plugin : String
  id : Option String
  interval : Option Duration
  collectionJitter : Option Duration
  precision : Option Duration
  name : NameConfig
  tags : Tags
  filter : FilterConfig
  options : Yaml.Value

def SourceConfig.ofPlugin (plugin : String) : SourceConfig :=
  ⟨plugin, none, none, none, none, .empty, [], .empty, .null⟩

structure ProcessorConfig where
  plugin : String
  id : Option String
  workers : Nat
  ordered : Bool
  queueSize : Nat
  options : Yaml.Value

def ProcessorConfig.ofPlugin (plugin : String) : ProcessorConfig :=
  ⟨plugin, none, 1, true, 1000, .null⟩

structure AggregatorConfig where
  plugin : String
  id : Option String
  period : Duration
  delay : Duration
  grace : Duration
  /-- Whether a metric that it selects goes no further than this stage. -/
  withholds : Bool
  name : NameConfig
  tags : Tags
  filter : FilterConfig
  options : Yaml.Value

def AggregatorConfig.ofPlugin (plugin : String) : AggregatorConfig :=
  ⟨plugin, none, Duration.ofSeconds 30, Duration.ofNanos (100000000), Duration.zero, false, .empty, [],
    .empty, .null⟩

structure OutputConfig where
  plugin : String
  id : Option String
  flushInterval : Option Duration
  flushJitter : Option Duration
  batchSize : Option Nat
  bufferLimit : Option Nat
  name : NameConfig
  filter : FilterConfig
  options : Yaml.Value

def OutputConfig.ofPlugin (plugin : String) : OutputConfig :=
  ⟨plugin, none, none, none, none, none, .empty, .empty, .null⟩

structure Config where
  agent : AgentConfig
  telemetry : Option TelemetryConfig
  sources : List SourceConfig
  processors : List ProcessorConfig
  aggregators : List AggregatorConfig
  outputs : List OutputConfig

namespace Config

def empty : Config := ⟨.default, none, [], [], [], []⟩

def intervalOf (c : Config) (s : SourceConfig) : Duration := s.interval.getD c.agent.interval

def flushIntervalOf (c : Config) (o : OutputConfig) : Duration :=
  o.flushInterval.getD c.agent.flushInterval

def batchSizeOf (c : Config) (o : OutputConfig) : Nat := o.batchSize.getD c.agent.batchSize

def bufferLimitOf (c : Config) (o : OutputConfig) : Nat := o.bufferLimit.getD c.agent.bufferLimit

end Config

end MetricAgent
