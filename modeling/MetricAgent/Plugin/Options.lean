import MetricAgent.Aggregator.Basic
import MetricAgent.Processor.Basic
import MetricAgent.Sink.Basic
import MetricAgent.Source.Constant
import MetricAgent.Yaml.ValueReading

/-!
# Options of plugins

Each plugin of the agent is made from options, which are a record of its own.
Options that are absent are an empty record.
-/

namespace MetricAgent.Options

open Yaml (Value ReadError RecordField)

inductive Failure where
  | unreadable (e : ReadError)
  | constant (e : ConstantConfig.Failure)
  /-- No writer of lines has such long units. -/
  | unitTooLong
deriving DecidableEq, Repr

/-- The wording of a failure, as far as it is worded here. -/
def Failure.message? : Failure → Option String
  | .unreadable e => e.message?
  | .constant e => some e.message
  | .unitTooLong => none

def read {ρ : Type} (fields : List (RecordField Value ρ)) (start : ρ) (options : Value) :
    Except Failure ρ :=
  (match options with
    | .atom .null => RecordField.readRecord fields Value.text start []
    | options => options.record fields start).mapError .unreadable

def constantFields : List (RecordField Value ConstantConfig) := [
  .demanded "measurement" Value.text fun c x => { c with measurement := x },
  .demanded "fields" (Value.dictionary Value.fieldValue) fun c x => { c with fields := x },
  .optional "tags" (Value.dictionary Value.text) fun c x => { c with tags := x },
  .optional "kind" Value.kind fun c x => { c with kind := x }]

def constant (options : Value) : Except Failure Source := do
  let c ← read constantFields ⟨"", [], [], .untyped⟩ options
  c.source.mapError .constant

/-- A sink that discards everything has no options. -/
def discard (options : Value) : Except Failure Sink := do
  read [] () options
  return .discard

structure FileOptions where
  path : String
  units : Option Duration

def fileFields : List (RecordField Value FileOptions) := [
  .optional "path" Value.text fun c x => { c with path := x },
  .optional "timestamp_units" (Value.orNothing Value.duration) fun c x => { c with units := x }]

/-- A file sink, which writes to the standard output if nothing is said. -/
def file (options : Value) : Except Failure Sink := do
  let c ← read fileFields ⟨"-", none⟩ options
  match FileSink.make? c.path c.units with
  | some s => return .file s
  | none => throw .unitTooLong

structure CopyOptions where
  rename : Rename
  tags : List (String × String)

/-- A name that may be left out. -/
def nameText (v : Value) : Except ReadError String :=
  (v.orNothing Value.text).map fun s => s.getD ""

def copyFields : List (RecordField Value CopyOptions) := [
  .optional "name_override" nameText fun c x => { c with rename := { c.rename with name := x } },
  .optional "name_prefix" nameText fun c x => { c with rename := { c.rename with before := x } },
  .optional "name_suffix" nameText fun c x => { c with rename := { c.rename with after := x } },
  .optional "tags" (Value.dictionary Value.text) fun c x => { c with tags := x }]

def copy (options : Value) : Except Failure Processor := do
  let c ← read copyFields ⟨⟨"", "", ""⟩, []⟩ options
  return Processor.copy c.rename c.tags

structure RetagOptions where
  set : List (String × String)
  remove : List String
  overwrite : Bool

def retagFields : List (RecordField Value RetagOptions) := [
  .optional "set" (Value.dictionary Value.text) fun c x => { c with set := x },
  .optional "remove" (Value.list Value.text) fun c x => { c with remove := x },
  .optional "overwrite" Value.bool fun c x => { c with overwrite := x }]

def retag (options : Value) : Except Failure Processor := do
  let c ← read retagFields ⟨[], [], true⟩ options
  return Processor.retag c.set c.remove c.overwrite

def merge (options : Value) : Except Failure Aggregator := do
  read [] () options
  return .merge Grouper.empty

def finalFields : List (RecordField Value Duration) := [
  .optional "series_timeout" Value.duration fun _ x => x]

/-- An aggregator that waits for silence, for five minutes if nothing is said. -/
def final (options : Value) : Except Failure Aggregator := do
  return .final (← read finalFields (Duration.ofSeconds 300) options) LastMetrics.empty

end MetricAgent.Options
