import MetricAgent.Pipeline.Tasks

/-!
# A pipeline as tasks

The sources send into the first link; the tasks of the processors follow one
another, and after the last link `FanOut` hands every metric to every output.
Beside each output a loop flushes it, which begins a flush at a tick or when it
takes a wake. All these tasks take turns in any order.

Stopping goes from the front to the back. The sources stop and drop their
senders, the tasks drain and end one after the other, and only then do the flush
loops end, none of them in the middle of a flush. What is buffered after that
is left to one more `Output.write`.

`Flow.step` is one action of one task, and gives nothing where the task has to
wait. Aggregators are not part of a `Flow`.
-/

namespace MetricAgent

inductive LoopPhase where
  /-- It waits for a tick or a wake. -/
  | waiting
  /-- It has so many metrics left to write, or stops after one batch. -/
  | flushing (remaining : Nat) (once : Bool)
  | ended
deriving DecidableEq

structure OutputTask where
  output : Output
  /-- What has been handed to the output, in order. -/
  offered : List Metric
  phase : LoopPhase
  /-- The batch that the sink is looking at. -/
  writing : Option (Batch Metric)

inductive LoopAction where
  | tick
  /-- There is no further tick, and the loop breaks down. -/
  | expire
  | wake
  | write
  /-- The sink has answered. -/
  | settle (succeeded : Bool)

namespace OutputTask

def start (o : Output) : OutputTask := ⟨o, [], .waiting, none⟩

def offer (o : OutputTask) (m : Metric) : OutputTask :=
  { o with output := (o.output.add m).1, offered := o.offered ++ [m] }

def rest (o : OutputTask) : OutputTask :=
  { o with output := o.output.reportOverflow.1, phase := .waiting, writing := none }

def stop (o : OutputTask) : Option OutputTask :=
  match o.phase with
  | .waiting => some { o with phase := .ended }
  | _ => none

/-- An action of the flush loop. What a tick finds in the buffer is written
batch by batch up to the first failure; a wake is answered by one batch. -/
def step (o : OutputTask) : LoopAction → Option OutputTask
  | .tick =>
    match o.phase with
    | .waiting => some { o with phase := .flushing o.output.buffer.size false }
    | _ => none
  | .expire => o.stop
  | .wake =>
    match o.phase with
    | .waiting =>
      if o.output.wakeStored then
        some { o with
          output := o.output.takeWake.1
          phase := .flushing o.output.batchSize true }
      else none
    | _ => none
  | .write =>
    match o.phase, o.writing with
    | .flushing remaining _, none =>
      let (output, batch) := o.output.beginWrite (min o.output.batchSize remaining)
      let o := { o with output := output }
      some (if batch.isEmpty then o.rest else { o with writing := some batch })
    | _, _ => none
  | .settle succeeded =>
    match o.phase, o.writing with
    | .flushing remaining once, some batch =>
      let o := { o with output := o.output.endWrite batch succeeded }
      some (if succeeded && !once then
        { o with phase := .flushing (remaining - batch.length) once, writing := none }
      else o.rest)
    | _, _ => none

end OutputTask

/-- The task that hands metrics to the outputs. -/
structure FanOut where
  input : Link
  /-- A metric and the number of outputs that have it already. -/
  handing : Option (Metric × Nat)
  outputs : List OutputTask

inductive FanAction where
  | take
  /-- The next output gets the metric, or all outputs have it. -/
  | hand
  | finish

namespace FanOut

def step (f : FanOut) : FanAction → Option FanOut
  | .take =>
    match f.handing, f.input.queue with
    | none, m :: rest => some { f with
        input := { f.input with queue := rest }
        handing := some (m, 0) }
    | _, _ => none
  | .hand =>
    match f.handing with
    | some (m, i) =>
      match f.outputs[i]? with
      | some o => some { f with
          handing := some (m, i + 1)
          outputs := f.outputs.set i (o.offer m) }
      | none => some { f with handing := none }
    | none => none
  | .finish =>
    if f.handing.isNone && f.input.isOver then some { f with input := f.input.leave } else none

def onOutput (f : FanOut) (i : Nat) (change : OutputTask → Option OutputTask) : Option FanOut :=
  (f.outputs[i]?.bind change).map fun o => { f with outputs := f.outputs.set i o }

end FanOut

/-- The tasks from one link on. -/
inductive Flow where
  | outputs (f : FanOut)
  | stage (t : StageTask) (rest : Flow)

inductive FlowAction where
  /-- The stage that so many stages precede acts. -/
  | stage (i : Nat) (a : StageAction)
  | fanOut (a : FanAction)
  | loop (i : Nat) (a : LoopAction)

namespace Flow

def start (channelSize : Nat) (outputs : List Output) : List ProcessorStage → Flow
  | [] => .outputs ⟨.make channelSize, none, outputs.map .start⟩
  | s :: rest => .stage (.start channelSize s) (start channelSize outputs rest)

def input : Flow → Link
  | .outputs f => f.input
  | .stage t _ => t.input

def withInput (l : Link) : Flow → Flow
  | .outputs f => .outputs { f with input := l }
  | .stage t rest => .stage { t with input := l } rest

/-- Lets a passage reach the first link, where it can. -/
def pass? (flow : Flow) (passage : Passage) : Option Flow :=
  (flow.input.pass? passage).map fun l => flow.withInput l

def fan : Flow → FanOut
  | .outputs f => f
  | .stage _ rest => rest.fan

def ended : Flow → Bool
  | .outputs f => !f.input.isRead
  | .stage t rest => !t.input.isRead && rest.ended

def onFan (change : FanOut → Option FanOut) : Flow → Option Flow
  | .outputs f => (change f).map .outputs
  | .stage t rest => (rest.onFan change).map (.stage t)

/-- An action of a stage, together with what it passes on. -/
def stepStage (a : StageAction) : Nat → Flow → Option Flow
  | _, .outputs _ => none
  | 0, .stage t rest =>
    match t.step a with
    | some (t, passage) => (rest.pass? passage).map (.stage t)
    | none => none
  | i + 1, .stage t rest => (rest.stepStage a i).map (.stage t)

def step (flow : Flow) : FlowAction → Option Flow
  | .stage i a => flow.stepStage a i
  | .fanOut a => flow.onFan fun f => f.step a
  | .loop i a => flow.onFan fun f => f.onOutput i fun o => o.step a

end Flow

/-- The tasks of a pipeline, and what its sources have sent. -/
structure FlowRun where
  flow : Flow
  sent : List Metric

inductive FlowEvent where
  | source (m : Metric)
  | stopSources
  | act (a : FlowAction)
  | stopLoop (i : Nat)

namespace FlowRun

def start (channelSize : Nat) (stages : List ProcessorStage) (outputs : List Output) : FlowRun :=
  ⟨.start channelSize outputs stages, []⟩

/-- Lets an event happen, where it can. The flush loops are told to end when all
other tasks have ended. -/
def step (r : FlowRun) : FlowEvent → Option FlowRun
  | .source m =>
    if r.flow.input.isOpen then
      (r.flow.pass? (.metric m)).map fun flow => ⟨flow, r.sent ++ [m]⟩
    else none
  | .stopSources =>
    if r.flow.input.isOpen then (r.flow.pass? .finish).map fun flow => { r with flow := flow }
    else none
  | .act a => (r.flow.step a).map fun flow => { r with flow := flow }
  | .stopLoop i =>
    if r.flow.ended then
      (r.flow.onFan fun f => f.onOutput i OutputTask.stop).map fun flow => { r with flow := flow }
    else none

def next (r : FlowRun) (e : FlowEvent) : FlowRun := (r.step e).getD r

def run (r : FlowRun) (events : List FlowEvent) : FlowRun := events.foldl next r

end FlowRun

namespace Pipeline

def channelSize : Nat := 100

def flow (p : Pipeline) (_ : p.aggregators = []) : FlowRun :=
  .start channelSize p.processors (p.outlets.map Outlet.output)

end Pipeline

end MetricAgent
