/-!
# Telemetry

What a component exports about itself: counters, which only grow, and gauges,
which are set. A reading exists from the moment it is first touched, also if
it is touched by adding nothing. All readings of a component carry the labels
of that component.
-/

namespace MetricAgent

inductive Reading where
  | counter (n : Nat)
  | gauge (n : Nat)
deriving DecidableEq, Repr

def Reading.number : Reading → Nat
  | .counter n => n
  | .gauge n => n

structure Telemetry where
  labels : List (String × String)
  readings : List (String × Reading)
deriving DecidableEq, Repr

namespace Telemetry

/-- The labels of a component: what it is, its name, and its id if it has one. -/
def labelsOf (component name : String) (id : Option String) : List (String × String) :=
  ("component", component) :: ("component_name", name) :: (id.map fun i => ("id", i)).toList

def make (component name : String) (id : Option String) : Telemetry :=
  ⟨labelsOf component name id, []⟩

/-- Changes the reading of a name, in the order of names; `change` gets the
reading there is. -/
def update (name : String) (change : Option Reading → Reading) :
    List (String × Reading) → List (String × Reading)
  | [] => [(name, change none)]
  | (n, r) :: rest =>
    if name = n then (n, change (some r)) :: rest
    else if name < n then (name, change none) :: (n, r) :: rest
    else (n, r) :: update name change rest

def count (t : Telemetry) (name : String) (n : Nat) : Telemetry :=
  { t with readings := update name (fun
    | some (.counter m) => .counter (m + n)
    | _ => .counter n) t.readings }

def set (t : Telemetry) (name : String) (n : Nat) : Telemetry :=
  { t with readings := update name (fun _ => .gauge n) t.readings }

def value (t : Telemetry) (name : String) : Nat :=
  ((t.readings.lookup name).map Reading.number).getD 0

@[simp] theorem update_nil (name : String) (change : Option Reading → Reading) :
    update name change [] = [(name, change none)] := rfl

end Telemetry

end MetricAgent
