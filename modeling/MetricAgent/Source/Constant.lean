import MetricAgent.Source.Gatherer

/-!
# A constant source

Every gather measures the same thing: fields in the order of their keys, tags
and a kind, with no timestamp of its own. Without a name or without fields
there would be nothing to measure.
-/

namespace MetricAgent

structure ConstantConfig where
  measurement : String
  fields : List (String × FieldValue)
  tags : List (String × String)
  kind : MetricKind

namespace ConstantConfig

inductive Failure where
  | emptyMeasurement
  | noFields
deriving DecidableEq, Repr

def Failure.message : Failure → String
  | .emptyMeasurement => "measurement must not be empty"
  | .noFields => "at least one field is required"

def source (c : ConstantConfig) : Except Failure Source :=
  if c.measurement = "" then .error .emptyMeasurement
  else if c.fields.isEmpty then .error .noFields
  else .ok fun _ =>
    let fields := SortedPairs.ofList c.fields
    ⟨Duration.zero, fun _ => [.measure c.measurement fields c.tags none c.kind], none⟩

end ConstantConfig

end MetricAgent
