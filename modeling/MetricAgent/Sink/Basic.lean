import MetricAgent.Output
import MetricAgent.Sink.File

/-!
# Sinks

What a sink does is not up to the agent, so to the agent a sink is a plan: how
many metrics it takes in one write, and whether connecting, each write and
closing will succeed. The plan of a file sink depends on the files that are
there. A sink that discards everything always succeeds.
-/

namespace MetricAgent

structure SinkPlan where
  maxBatch : Option Nat
  connectFailure : Option String
  /-- What it does with one write after the other. -/
  script : List Reaction
  closeFailure : Option String
  /-- The words with which writes fail when the script is over. Without any,
  they succeed then. -/
  refusal : Option String

def SinkPlan.reliable : SinkPlan := ⟨none, none, [], none, none⟩

inductive Sink where
  | discard
  | file (f : FileSink)
  | planned (plan : SinkPlan)

/-- The first write after the script, if it fails. -/
def SinkPlan.refusals (p : SinkPlan) : List Reaction :=
  (p.refusal.map fun text => ⟨[], some text⟩).toList

namespace Sink

def plan (files : Files) : Sink → SinkPlan
  | .discard => .reliable
  | .file f =>
    match f.connect files with
    | .ok (f, files) => { SinkPlan.reliable with refusal := f.refusal? files }
    | .error e => { SinkPlan.reliable with connectFailure := some e.message }
  | .planned p => p

def maxBatch : Sink → Option Nat
  | .discard => none
  | .file _ => none
  | .planned p => p.maxBatch

end Sink

end MetricAgent
