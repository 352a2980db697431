/-!
# Records

A record is a mapping whose keys are known by name. Its entries are read in
their order, and the first thing that is wrong is reported. A name that is not
known is refused, and so is one that comes a second time. A required name that
has not come is noticed at the end.

How keys and values are read is up to the fields, so that records can be read
from anything that has entries.
-/

namespace MetricAgent.Yaml

inductive ReadError where
  | malformed
  /-- It is a duration one past the greatest one. -/
  | overflowingCarry
  | unknownField (name : String) (known : List String)
  | missingField (name : String)
deriving DecidableEq, Repr

namespace ReadError

def quote (name : String) : String := "`" ++ name ++ "`"

/-- What is said of the names that are known. -/
def expectation : List String → String
  | [] => "there are no fields"
  | [a] => "expected " ++ quote a
  | [a, b] => "expected " ++ quote a ++ " or " ++ quote b
  | names => "expected one of " ++ ", ".intercalate (names.map quote)

/-- The wording of an error about the name of a field. -/
def message? : ReadError → Option String
  | .unknownField name known => some ("unknown field " ++ quote name ++ ", " ++ expectation known)
  | .missingField name => some ("missing field " ++ quote name)
  | .malformed => none
  | .overflowingCarry => none

end ReadError

/-- How one field is read from a source of type `α` into a record. -/
structure RecordField (α ρ : Type) where
  name : String
  required : Bool
  read : α → ρ → Except ReadError ρ

namespace RecordField

variable {α β ρ : Type}

def optional (name : String) (read : α → Except ReadError β) (put : ρ → β → ρ) :
    RecordField α ρ :=
  ⟨name, false, fun x r => (read x).map (put r)⟩

def demanded (name : String) (read : α → Except ReadError β) (put : ρ → β → ρ) :
    RecordField α ρ :=
  ⟨name, true, fun x r => (read x).map (put r)⟩

/-- Reads entries one after the other, and gives the names that have come. -/
def readEntries (fields : List (RecordField α ρ)) (key : α → Except ReadError String) :
    List String → ρ → List (α × α) → Except ReadError (List String × ρ)
  | seen, r, [] => .ok (seen, r)
  | seen, r, (k, v) :: rest => do
    let name ← key k
    match fields.find? fun f => f.name = name with
    | none => throw (.unknownField name (fields.map RecordField.name))
    | some f =>
      if seen.contains name then throw .malformed
      else readEntries fields key (name :: seen) (← f.read v r) rest

def readRecord (fields : List (RecordField α ρ)) (key : α → Except ReadError String) (start : ρ)
    (entries : List (α × α)) : Except ReadError ρ := do
  let (seen, r) ← readEntries fields key [] start entries
  match fields.find? fun f => f.required && !seen.contains f.name with
  | some f => throw (.missingField f.name)
  | none => return r

end RecordField

end MetricAgent.Yaml
