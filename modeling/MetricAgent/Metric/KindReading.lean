import MetricAgent.Json.Outline
import MetricAgent.Metric.Kind

/-!
# Reading kinds from JSON

A kind is written as its name. It may also be an object with the name as its
only key and `null` as the value.
-/

namespace MetricAgent.MetricKind

inductive ReadError where
  /-- The value is of a type that no kind is written in. -/
  | unexpectedType (value : Json.Outline)
  /-- The object has more or fewer keys than one. -/
  | notSingleKey
  | unknownName (name : String)
  /-- The value beside the name is not `null`. -/
  | unexpectedContent (value : Json.Outline)

def ReadError.message : ReadError → String
  | .unexpectedType v => "invalid type: " ++ v.describe ++ ", expected string or map"
  | .notSingleKey => "invalid value: map, expected map with a single key"
  | .unknownName s =>
    "unknown variant `" ++ s ++ "`, expected one of " ++
      ", ".intercalate (all.map fun k => "`" ++ k.name ++ "`")
  | .unexpectedContent v => "invalid type: " ++ v.describe ++ ", expected unit"

def named (s : String) : Except ReadError MetricKind :=
  match ofName? s with
  | some k => .ok k
  | none => .error (.unknownName s)

def ofOutline : Json.Outline → Except ReadError MetricKind
  | .text s => named s
  | .object [(s, value)] => do
    let k ← named s
    match value with
    | .null => return k
    | value => throw (.unexpectedContent value)
  | .object _ => .error .notSingleKey
  | value => .error (.unexpectedType value)

@[simp] theorem ofOutline_name (k : MetricKind) : ofOutline (.text k.name) = .ok k := by
  simp [ofOutline, named]

end MetricAgent.MetricKind
