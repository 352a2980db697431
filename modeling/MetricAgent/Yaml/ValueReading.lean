import MetricAgent.Metric.Kind
import MetricAgent.Yaml.TreeReading

/-!
# Reading values

A value already says what it is, so a text is only taken from a text and a
truth value only from a truth value. Custom tags are looked through, except
where a tag may be a name itself. The absence of a value is an empty collection
or, where something is optional, nothing.
-/

namespace MetricAgent.Yaml.Value

def untagged : Value → Value
  | .tagged _ v => untagged v
  | v => v

def text (v : Value) : Except ReadError String :=
  match v.untagged with
  | .atom (.text s) => .ok s
  | _ => .error .malformed

def bool (v : Value) : Except ReadError Bool :=
  match v.untagged with
  | .atom (.bool b) => .ok b
  | _ => .error .malformed

def duration (v : Value) : Except ReadError Duration := do durationOfText (← v.text)

def orNothing {β : Type} (read : Value → Except ReadError β) (v : Value) :
    Except ReadError (Option β) :=
  match v with
  | .atom .null => .ok none
  | v => (read v).map some

def items (v : Value) : Except ReadError (List Value) :=
  match v.untagged with
  | .sequence xs => .ok xs
  | .atom .null => .ok []
  | _ => .error .malformed

def entries (v : Value) : Except ReadError (List (Value × Value)) :=
  match v.untagged with
  | .mapping es => .ok es
  | .atom .null => .ok []
  | _ => .error .malformed

def list {β : Type} (read : Value → Except ReadError β) (v : Value) :
    Except ReadError (List β) := do
  (← v.items).mapM read

def dictionary {β : Type} (read : Value → Except ReadError β) (v : Value) :
    Except ReadError (SortedPairs β) := do
  let pairs ← (← v.entries).mapM fun (k, x) => do return (← k.text, ← read x)
  return SortedPairs.ofList pairs

def record {ρ : Type} (fields : List (RecordField Value ρ)) (start : ρ) (v : Value) :
    Except ReadError ρ := do
  RecordField.readRecord fields text start (← v.entries)

def fieldValue : Value → Except ReadError FieldValue
  | .atom a => match FieldValue.ofAtom? a with
    | some x => .ok x
    | none => .error .malformed
  | _ => .error .malformed

/-- A kind of metrics: its name, or nothing with the name as its tag. -/
def kind : Value → Except ReadError MetricKind
  | .atom (.text s) => named s
  | .tagged name (.atom .null) => named name
  | _ => .error .malformed
where
  named (s : String) : Except ReadError MetricKind :=
    match MetricKind.ofName? s with
    | some k => .ok k
    | none => .error .malformed

end MetricAgent.Yaml.Value
