import MetricAgent.Config.Basic
import MetricAgent.Yaml.TreeReading

/-!
# Reading a configuration

A configuration is a YAML document. Each part of it is a record, in which
everything but the plugins and the address of the telemetry may be left out.

A document can also be a fragment, which is only one of several that make up a
configuration. It is read like a whole one, except that the agent may be
nothing there, which is the same as leaving it out.
-/

namespace MetricAgent

open Yaml (Tree ReadError RecordField)

def AgentConfig.fields : List (RecordField Tree AgentConfig) := [
  .optional "interval" Tree.duration fun c x => { c with interval := x },
  .optional "round_interval" Tree.bool fun c x => { c with roundInterval := x },
  .optional "collection_jitter" Tree.duration fun c x => { c with collectionJitter := x },
  .optional "flush_interval" Tree.duration fun c x => { c with flushInterval := x },
  .optional "flush_jitter" Tree.duration fun c x => { c with flushJitter := x },
  .optional "precision" Tree.duration fun c x => { c with precision := x },
  .optional "metric_batch_size" Tree.count fun c x => { c with batchSize := x },
  .optional "metric_buffer_limit" Tree.count fun c x => { c with bufferLimit := x },
  .optional "global_tags" (Tree.dictionary Tree.text) fun c x => { c with globalTags := x }]

def AgentConfig.read : Tree → Except ReadError AgentConfig := Tree.record fields default

def SocketAddress.read (t : Tree) : Except ReadError SocketAddress := do
  match ofText? (← t.text) with
  | some a => return a
  | none => throw .malformed

def TelemetryConfig.fields : List (RecordField Tree TelemetryConfig) := [
  .demanded "addr" SocketAddress.read fun c x => { c with address := x },
  .optional "global_labels" (Tree.dictionary Tree.text) fun c x => { c with globalLabels := x }]

def TelemetryConfig.read : Tree → Except ReadError TelemetryConfig :=
  Tree.record fields ⟨.v4 [] 0, []⟩

def FilterConfig.fields : List (RecordField Tree FilterConfig) :=
  let patterns := Tree.list Tree.text
  [.optional "name_pass" patterns fun c x => { c with namePass := x },
    .optional "name_drop" patterns fun c x => { c with nameDrop := x },
    .optional "tag_pass" (Tree.dictionary patterns) fun c x => { c with tagPass := x },
    .optional "tag_drop" (Tree.dictionary patterns) fun c x => { c with tagDrop := x },
    .optional "field_pass" patterns fun c x => { c with fieldPass := x },
    .optional "field_drop" patterns fun c x => { c with fieldDrop := x },
    .optional "tag_include" patterns fun c x => { c with tagInclude := x },
    .optional "tag_exclude" patterns fun c x => { c with tagExclude := x },
    .optional "tag_rename" (Tree.dictionary Tree.text) fun c x => { c with tagRename := x }]

def FilterConfig.read : Tree → Except ReadError FilterConfig := Tree.record fields empty

/-- The fields that rename metrics, of a record that has names somewhere in it. -/
def NameConfig.fields {ρ : Type} (change : (NameConfig → NameConfig) → ρ → ρ) :
    List (RecordField Tree ρ) :=
  let text := Tree.orNothing Tree.text
  [.optional "name_override" text fun c x => change (fun n => { n with name := x }) c,
    .optional "name_prefix" text fun c x => change (fun n => { n with before := x }) c,
    .optional "name_suffix" text fun c x => change (fun n => { n with after := x }) c]

def SourceConfig.fields : List (RecordField Tree SourceConfig) :=
  let duration := Tree.orNothing Tree.duration
  [.demanded "plugin" Tree.text fun c x => { c with plugin := x },
    .optional "id" (Tree.orNothing Tree.text) fun c x => { c with id := x },
    .optional "interval" duration fun c x => { c with interval := x },
    .optional "collection_jitter" duration fun c x => { c with collectionJitter := x },
    .optional "precision" duration fun c x => { c with precision := x }] ++
  NameConfig.fields (fun f c => { c with name := f c.name }) ++
  [.optional "tags" (Tree.dictionary Tree.text) fun c x => { c with tags := x },
    .optional "filter" FilterConfig.read fun c x => { c with filter := x },
    .optional "options" Tree.value fun c x => { c with options := x }]

def SourceConfig.read : Tree → Except ReadError SourceConfig := Tree.record fields (ofPlugin "")

def ProcessorConfig.fields : List (RecordField Tree ProcessorConfig) := [
  .demanded "plugin" Tree.text fun c x => { c with plugin := x },
  .optional "id" (Tree.orNothing Tree.text) fun c x => { c with id := x },
  .optional "workers" Tree.count fun c x => { c with workers := x },
  .optional "ordered" Tree.bool fun c x => { c with ordered := x },
  .optional "queue_size" Tree.count fun c x => { c with queueSize := x },
  .optional "options" Tree.value fun c x => { c with options := x }]

def ProcessorConfig.read : Tree → Except ReadError ProcessorConfig :=
  Tree.record fields (ofPlugin "")

def AggregatorConfig.fields : List (RecordField Tree AggregatorConfig) :=
  [.demanded "plugin" Tree.text fun c x => { c with plugin := x },
    .optional "id" (Tree.orNothing Tree.text) fun c x => { c with id := x },
    .optional "period" Tree.duration fun c x => { c with period := x },
    .optional "delay" Tree.duration fun c x => { c with delay := x },
    .optional "grace" Tree.duration fun c x => { c with grace := x },
    .optional "drop_original" Tree.bool fun c x => { c with withholds := x }] ++
  NameConfig.fields (fun f c => { c with name := f c.name }) ++
  [.optional "tags" (Tree.dictionary Tree.text) fun c x => { c with tags := x },
    .optional "filter" FilterConfig.read fun c x => { c with filter := x },
    .optional "options" Tree.value fun c x => { c with options := x }]

def AggregatorConfig.read : Tree → Except ReadError AggregatorConfig :=
  Tree.record fields (ofPlugin "")

def OutputConfig.fields : List (RecordField Tree OutputConfig) :=
  let duration := Tree.orNothing Tree.duration
  let count := Tree.orNothing Tree.count
  [.demanded "plugin" Tree.text fun c x => { c with plugin := x },
    .optional "id" (Tree.orNothing Tree.text) fun c x => { c with id := x },
    .optional "flush_interval" duration fun c x => { c with flushInterval := x },
    .optional "flush_jitter" duration fun c x => { c with flushJitter := x },
    .optional "metric_batch_size" count fun c x => { c with batchSize := x },
    .optional "metric_buffer_limit" count fun c x => { c with bufferLimit := x }] ++
  NameConfig.fields (fun f c => { c with name := f c.name }) ++
  [.optional "filter" FilterConfig.read fun c x => { c with filter := x },
    .optional "options" Tree.value fun c x => { c with options := x }]

def OutputConfig.read : Tree → Except ReadError OutputConfig := Tree.record fields (ofPlugin "")

/-- One of several documents that make up a configuration. -/
structure ConfigFragment where
  agent : Option AgentConfig
  telemetry : Option TelemetryConfig
  sources : List SourceConfig
  processors : List ProcessorConfig
  aggregators : List AggregatorConfig
  outputs : List OutputConfig

namespace ConfigFragment

def empty : ConfigFragment := ⟨none, none, [], [], [], []⟩

/-- The fields of a document, with the way in which the agent is read. -/
def fields (readAgent : Tree → Except ReadError (Option AgentConfig)) :
    List (RecordField Tree ConfigFragment) := [
  .optional "agent" readAgent fun c x => { c with agent := x },
  .optional "telemetry" (Tree.orNothing TelemetryConfig.read) fun c x => { c with telemetry := x },
  .optional "sources" (Tree.list SourceConfig.read) fun c x => { c with sources := x },
  .optional "processors" (Tree.list ProcessorConfig.read) fun c x => { c with processors := x },
  .optional "aggregators" (Tree.list AggregatorConfig.read) fun c x => { c with aggregators := x },
  .optional "outputs" (Tree.list OutputConfig.read) fun c x => { c with outputs := x }]

def readWith (readAgent : Tree → Except ReadError (Option AgentConfig)) (s : String) :
    Except ReadError ConfigFragment :=
  Yaml.Document.read (Tree.record (fields readAgent) empty) s

def ofText : String → Except ReadError ConfigFragment := readWith (Tree.orNothing AgentConfig.read)

/-- The configuration that a fragment is when nothing else is said. -/
def toConfig (f : ConfigFragment) : Config :=
  ⟨f.agent.getD .default, f.telemetry, f.sources, f.processors, f.aggregators, f.outputs⟩

end ConfigFragment

def Config.ofText (s : String) : Except ReadError Config := do
  return (← ConfigFragment.readWith (fun t => (AgentConfig.read t).map some) s).toConfig

end MetricAgent
