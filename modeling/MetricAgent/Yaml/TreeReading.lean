import MetricAgent.Metric.FieldValue
import MetricAgent.Text.SortedPairs
import MetricAgent.Time.DurationText
import MetricAgent.Yaml.Record
import MetricAgent.Yaml.Value

/-!
# Reading trees

What a part of a document says depends on what is needed there. As a text, any
scalar is taken as it is written, also a number or a word for nothing. A truth
value or a count has to be plain, or a literal block with a tag that says what
it is. Collections may be left empty, and what is optional may also be a word
for nothing.
-/

namespace MetricAgent

/-- The value of a field that an atom stands for; nothing is no value. -/
def FieldValue.ofAtom? : Yaml.Atom → Option FieldValue
  | .null => none
  | .bool b => some (.bool b)
  | .int n => if n < 0 then some (.int (Int64.ofInt n)) else some (ofNat n.toNat)
  | .float x => some (.float x)
  | .text s => some (.text s)

namespace Yaml

def durationOfText (s : String) : Except ReadError Duration :=
  match Duration.ofText s with
  | .ok d => .ok d
  | .error .malformed => .error .malformed
  | .error .overflowingCarry => .error .overflowingCarry

namespace Tree

def text : Tree → Except ReadError String
  | .scalar _ _ s => .ok s
  | _ => .error .malformed

/-- Whether a scalar may be read as something that a tag of the language is
for. -/
def showsType (tagName : String) (tag : FullTag) (style : ScalarStyle) : Bool :=
  style == .plain ||
    (style == .literal && (tag.bind Atom.languageTag?) == some tagName)

def bool : Tree → Except ReadError Bool
  | .scalar tag style s =>
    match if showsType "bool" tag style then Atom.bool? s else none with
    | some b => .ok b
    | none => .error .malformed
  | _ => .error .malformed

def count : Tree → Except ReadError Nat
  | .scalar tag style s =>
    match if showsType "int" tag style then Atom.natural? s.toList else none with
    | some n => if n < UInt64.size then .ok n else .error .malformed
    | none => .error .malformed
  | _ => .error .malformed

def duration (t : Tree) : Except ReadError Duration := do durationOfText (← t.text)

/-- Whether a scalar stands for nothing where something is optional. -/
def isNothing (tag : FullTag) (style : ScalarStyle) (s : String) : Except ReadError Bool :=
  if style ≠ .plain then .ok false
  else match tag with
    | none => .ok (s = "" || Atom.isNullWord s)
    | some tag =>
      if Atom.languageTag? tag = some "null" then
        (if Atom.isNullWord s then .ok true else .error .malformed)
      else .ok false

def orNothing {β : Type} (read : Tree → Except ReadError β) (t : Tree) :
    Except ReadError (Option β) := do
  let nothing ← match t with
    | .scalar tag style s => isNothing tag style s
    | _ => .ok false
  if nothing then return none else return some (← read t)

/-- The items of a sequence, of which none may be written. -/
def items : Tree → Except ReadError (List Tree)
  | .sequence _ xs => .ok xs
  | .scalar _ .plain "" => .ok []
  | _ => .error .malformed

/-- The entries of a mapping, of which none may be written. -/
def entries : Tree → Except ReadError (List (Tree × Tree))
  | .mapping _ es => .ok es
  | .scalar _ .plain "" => .ok []
  | _ => .error .malformed

def list {β : Type} (read : Tree → Except ReadError β) (t : Tree) : Except ReadError (List β) := do
  (← t.items).mapM read

/-- A dictionary. Of entries with the same key the last one counts. -/
def dictionary {β : Type} (read : Tree → Except ReadError β) (t : Tree) :
    Except ReadError (SortedPairs β) := do
  let pairs ← (← t.entries).mapM fun (k, v) => do return (← k.text, ← read v)
  return SortedPairs.ofList pairs

def record {ρ : Type} (fields : List (RecordField Tree ρ)) (start : ρ) (t : Tree) :
    Except ReadError ρ := do
  RecordField.readRecord fields text start (← t.entries)

def value (t : Tree) : Except ReadError Value :=
  match Value.ofTree? t with
  | some v => .ok v
  | none => .error .malformed

def fieldValue? : Tree → Option FieldValue
  | .scalar tag style s =>
    if (Atom.customTag? tag).isSome then none
    else (Atom.ofScalar? tag style s).bind FieldValue.ofAtom?
  | _ => none

end Tree

def Document.read {β : Type} (read : Tree → Except ReadError β) (s : String) :
    Except ReadError β := do
  let d := ofText s
  let x ← read d.root
  if d.whole then return x else throw .malformed

def Value.ofText? (s : String) : Option Value := (Document.read Tree.value s).toOption

end Yaml

def FieldValue.ofYaml? (s : String) : Option FieldValue :=
  (Yaml.Document.read (fun t => t.fieldValue?.elim (.error .malformed) .ok) s).toOption

end MetricAgent
