import MetricAgent.Metric.Basic
import MetricAgent.Time.Precision

/-!
# Accumulators

A source hands what it measures to an accumulator. The accumulator makes
metrics of it, stamps them, passes them through a maker that may change or
refuse them, and sends them on. What cannot become a metric is recorded as an
error, and so is whatever else the source reports.

All clones of an accumulator share this state and differ at most in their
precision, which is therefore an argument and no part of the state.
-/

namespace MetricAgent

inductive Call where
  /-- A measurement without a timestamp was made now. -/
  | measure (name : String) (fields : List (String × FieldValue)) (tags : List (String × String))
      (timestamp : Option Timestamp) (kind : MetricKind)
  | metric (m : Metric)
  | error (text : String)

/-- What the clones of an accumulator share. -/
structure Accumulator where
  /-- Changes a metric on its way, or refuses it. -/
  maker : Metric → Option Metric
  /-- Whether anyone still receives. -/
  isOpen : Bool
  /-- What has been sent and received, in order. -/
  sent : List Metric
  /-- How many metrics the maker has let through. -/
  made : Nat
  /-- The errors since they were last taken. -/
  errors : List String

namespace Accumulator

def make (maker : Metric → Option Metric) : Accumulator := ⟨maker, true, [], 0, []⟩

def send (a : Accumulator) (m : Metric) : Accumulator :=
  match a.maker m with
  | none => a
  | some m => { a with made := a.made + 1, sent := if a.isOpen then a.sent ++ [m] else a.sent }

def addError (a : Accumulator) (text : String) : Accumulator :=
  { a with errors := a.errors ++ [text] }

/-- Takes a call in. The timestamp of a measurement is rounded down. -/
def call (a : Accumulator) (precision : Duration) (now : Timestamp) : Call → Accumulator
  | .measure name fields tags timestamp kind =>
    match Metric.make name fields ((timestamp.getD now).truncate precision) with
    | .ok m => a.send { m.addTags tags with kind := kind }
    | .error e => a.addError e.message
  | .metric m => a.send m
  | .error text => a.addError text

def callAll (a : Accumulator) (precision : Duration) (now : Timestamp) (calls : List Call) :
    Accumulator :=
  calls.foldl (fun a c => a.call precision now c) a

def takeErrors (a : Accumulator) : Accumulator × List String := ({ a with errors := [] }, a.errors)

def receive (a : Accumulator) : Accumulator × List Metric := ({ a with sent := [] }, a.sent)

def close (a : Accumulator) : Accumulator := { a with isOpen := false, sent := [] }

@[simp] theorem callAll_nil (a : Accumulator) (precision : Duration) (now : Timestamp) :
    a.callAll precision now [] = a := rfl

@[simp] theorem callAll_cons (a : Accumulator) (precision : Duration) (now : Timestamp) (c : Call)
    (cs : List Call) :
    a.callAll precision now (c :: cs) = (a.call precision now c).callAll precision now cs := rfl

end Accumulator

end MetricAgent
