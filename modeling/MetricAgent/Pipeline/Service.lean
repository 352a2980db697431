import MetricAgent.Pipeline.Flow

/-!
# A pipeline in service

A service takes a pipeline from its start to its end. First the sinks are
connected, one after the other; if one fails, those before it are closed again
and that is all. Then every source, every processor, all aggregators together
and the fan-out to the outputs get a task each, and every output a flush loop.
These tasks take turns in any order.

Told to stop, the service waits for the sources, then for the tasks behind
them, from the front to the back, and then for the flush loops. What is left in
the buffers is flushed by the service itself, output by output, and each sink is
closed after that. A failure of a write or of a close changes nothing of this.

`Service.calls` records every call of a sink in the order in which they begin.
-/

namespace MetricAgent

structure SourceTask where
  source : Source
  gatherer : Gatherer
  /-- What a gather has made and has not been sent yet. -/
  unsent : List Metric
  ended : Bool

inductive SourceAction where
  /-- It gathers, where `clock` is the time by which the source makes its calls
  and `now` that of measurements without one. -/
  | gather (clock now : Timestamp)
  | send
  /-- It ends between two gathers: it was told to, or there is no further tick. -/
  | stop

namespace SourceTask

def start (s : ScheduledSource) : SourceTask := ⟨s.source, s.gatherer, [], false⟩

/-- An action of a task, and what it passes on. With the end of the task its
sender is dropped. -/
def step (t : SourceTask) : SourceAction → Option (SourceTask × Passage)
  | .gather clock now =>
    if t.ended || !t.unsent.isEmpty then none
    else
      let (gatherer, _) := t.gatherer.gather (t.source t.gatherer.gathers) clock now
      let (accumulator, ms) := gatherer.accumulator.receive
      let gatherer := { gatherer with accumulator := accumulator }
      some ({ t with gatherer := gatherer, unsent := ms }, .nothing)
  | .send =>
    match t.unsent with
    | m :: rest => some ({ t with unsent := rest }, .metric m)
    | [] => none
  | .stop =>
    if t.ended || !t.unsent.isEmpty then none else some ({ t with ended := true }, .finish)

end SourceTask

structure AggregatorTask where
  input : Link
  stage : List (Running Aggregator)
  /-- What goes on to the outputs and has not been sent yet. -/
  unsent : List Metric
  /-- Whether the input is over and all aggregators have pushed a last time. -/
  drained : Bool

inductive AggregatorAction where
  | take (now : Timestamp)
  | timer (now : Timestamp)
  | send
  /-- The input is over, and all aggregators push a last time. -/
  | drain (now : Timestamp)
  | finish

namespace AggregatorTask

def start (channelSize : Nat) (stage : List (Running Aggregator)) : AggregatorTask :=
  ⟨.make channelSize, stage, [], false⟩

def handle (t : AggregatorTask) (now : Timestamp) (e : StageEvent) : AggregatorTask :=
  let (stage, out) := AggregatorStage.step t.stage now e
  { t with stage := stage, unsent := out }

/-- An action of a task that has not ended, and what it passes on. Nothing is
taken before all has been sent. -/
def step (t : AggregatorTask) (a : AggregatorAction) : Option (AggregatorTask × Passage) :=
  if t.input.isRead then
    match a, t.unsent with
    | .send, m :: rest => some ({ t with unsent := rest }, .metric m)
    | .take now, [] =>
      match t.input.queue with
      | m :: rest =>
        some ({ t with input := { t.input with queue := rest } }.handle now (.metric m), .nothing)
      | [] => none
    | .timer now, [] => if t.drained then none else some (t.handle now .timer, .nothing)
    | .drain now, [] =>
      if t.input.isOver && !t.drained then
        some ({ t with drained := true }.handle now .stop, .nothing)
      else none
    | .finish, [] => if t.drained then some ({ t with input := t.input.leave }, .finish) else none
    | _, _ => none
  else none

end AggregatorTask

/-- The tasks of a pipeline. Those of the outputs are part of the fan-out. -/
structure Tasks where
  sources : List SourceTask
  stages : List StageTask
  /-- There is no task without aggregators. -/
  aggregation : Option AggregatorTask
  fan : FanOut

inductive TaskAction where
  | source (i : Nat) (a : SourceAction)
  | stage (i : Nat) (a : StageAction)
  | aggregators (a : AggregatorAction)
  | fanOut (a : FanAction)

namespace Tasks

def start (channelSize : Nat) (p : Pipeline) : Tasks where
  sources := p.sources.map SourceTask.start
  stages := p.processors.map (StageTask.start channelSize)
  aggregation :=
    if p.aggregators.isEmpty then none else some (.start channelSize p.aggregators)
  fan := ⟨.make channelSize, none, p.outlets.map fun o => .start o.output⟩

def passOut? (t : Tasks) (passage : Passage) : Option Tasks :=
  (t.fan.input.pass? passage).map fun l => { t with fan := { t.fan with input := l } }

/-- Lets a passage reach what follows the processors, where it can. -/
def passOn? (t : Tasks) (passage : Passage) : Option Tasks :=
  match t.aggregation with
  | some a => (a.input.pass? passage).map fun l =>
      { t with aggregation := some { a with input := l } }
  | none => t.passOut? passage

/-- Lets a passage reach the stage that so many stages precede, or what follows
them all, where it can. -/
def pass? (t : Tasks) (i : Nat) (passage : Passage) : Option Tasks :=
  match t.stages[i]? with
  | some s => (s.input.pass? passage).map fun l =>
      { t with stages := t.stages.set i { s with input := l } }
  | none => t.passOn? passage

def sourcesEnded (t : Tasks) : Bool := t.sources.all SourceTask.ended

def ended (t : Tasks) : Bool :=
  t.stages.all (fun s => !s.input.isRead) && t.aggregation.all (fun a => !a.input.isRead) &&
    !t.fan.input.isRead

/-- What reaches the first link when a source passes something on: the sender
is gone only with the last source. -/
def fromSource (t : Tasks) : Passage → Passage
  | .finish => if t.sourcesEnded then .finish else .nothing
  | passage => passage

def step (t : Tasks) : TaskAction → Option Tasks
  | .source i a => do
    let s ← t.sources[i]?
    let (s, passage) ← s.step a
    let t := { t with sources := t.sources.set i s }
    t.pass? 0 (t.fromSource passage)
  | .stage i a => do
    let s ← t.stages[i]?
    let (s, passage) ← s.step a
    { t with stages := t.stages.set i s }.pass? (i + 1) passage
  | .aggregators a => do
    let s ← t.aggregation
    let (s, passage) ← s.step a
    { t with aggregation := some s }.passOut? passage
  | .fanOut a => (t.fan.step a).map fun f => { t with fan := f }

end Tasks

inductive SinkCall where
  /-- It is connected, and may fail with its words. -/
  | connect (failure : Option String)
  | write (metrics : List Metric)
  | close (failure : Option String)
deriving DecidableEq

inductive ServicePhase where
  /-- It connects the sink that so many precede. -/
  | connecting (i : Nat)
  /-- A sink could not be connected; of those before it, it closes the one that
  so many precede. -/
  | undoing (failed i : Nat) (e : OutputError)
  | running
  /-- It waits for the sources. -/
  | stopping
  /-- It waits for all tasks but the flush loops. -/
  | draining
  /-- It waits for the flush loops. -/
  | endingLoops
  /-- It flushes and closes the output that so many precede. -/
  | finishing (i : Nat)
  | returned (failure : Option OutputError)
deriving DecidableEq

def ServicePhase.isUp : ServicePhase → Bool
  | .running | .stopping | .draining | .endingLoops => true
  | _ => false

structure Service where
  phase : ServicePhase
  tasks : Tasks
  /-- The calls of the sinks, each with the number of outputs before its own. -/
  calls : List (Nat × SinkCall)

inductive ServiceEvent where
  /-- The sink answers that is being connected. -/
  | connect (failure : Option String)
  /-- The sink answers that is closed because another one failed. -/
  | undo (failure : Option String)
  | task (a : TaskAction)
  | loop (i : Nat) (a : LoopAction)
  | shutdown
  /-- What it waits for has come. -/
  | proceed
  /-- A flush loop that was told to ends. -/
  | endLoop (i : Nat)
  /-- An output is flushed a last time, with these answers of its sink, and is
  closed. -/
  | finish (writes : List (Option String)) (failure : Option String)

namespace Service

def outputs (s : Service) : List OutputTask := s.tasks.fan.outputs

/-- The phase in which the next sink is connected, if there is one. -/
def connectFrom (s : Service) (i : Nat) : ServicePhase :=
  if i < s.outputs.length then .connecting i else .running

/-- The phase in which the next sink before a failed one is closed. -/
def undoFrom (failed i : Nat) (e : OutputError) : ServicePhase :=
  if i < failed then .undoing failed i e else .returned (some e)

/-- The phase in which the next output is finished, if there is one. -/
def finishFrom (s : Service) (i : Nat) : ServicePhase :=
  if i < s.outputs.length then .finishing i else .returned none

/-- A service before its first call. Without a source nobody ever sends. -/
def start (p : Pipeline) : Service :=
  let t := Tasks.start Pipeline.channelSize p
  let s : Service := ⟨.running, if p.sources.isEmpty then (t.pass? 0 .finish).getD t else t, []⟩
  { s with phase := s.connectFrom 0 }

def onOutput (s : Service) (i : Nat) (change : OutputTask → Option OutputTask) : Option Service :=
  (s.tasks.fan.onOutput i change).map fun f => { s with tasks := { s.tasks with fan := f } }

/-- The call that begins with an action of a flush loop, which has led to a state
of its output. -/
def writeCall (i : Nat) (a : LoopAction) (o : OutputTask) : List (Nat × SinkCall) :=
  match a, o.writing with
  | .write, some batch => [(i, .write batch.items)]
  | _, _ => []

def finish (o : OutputTask) (i : Nat) (writes : List (Option String)) (failure : Option String) :
    OutputTask × List (Nat × SinkCall) :=
  let f := o.output.write (writes.map fun failure => ⟨[], failure⟩)
  ({ o with output := f.output.reportOverflow.1 },
    f.log.map (fun w => (i, .write w.metrics)) ++ [(i, .close failure)])

def step (s : Service) : ServiceEvent → Option Service
  | .connect failure =>
    match s.phase with
    | .connecting i => do
      let o ← s.outputs[i]?
      return { s with
        phase := match failure with
          | none => s.connectFrom (i + 1)
          | some text => undoFrom i 0 (.connect o.output.name text)
        calls := s.calls ++ [(i, .connect failure)] }
    | _ => none
  | .undo failure =>
    match s.phase with
    | .undoing failed i e => some { s with
        phase := undoFrom failed (i + 1) e
        calls := s.calls ++ [(i, .close failure)] }
    | _ => none
  | .task a =>
    if s.phase.isUp then (s.tasks.step a).map fun t => { s with tasks := t } else none
  | .loop i a =>
    if s.phase.isUp then do
      let o ← s.outputs[i]?
      let o ← o.step a
      return { s with
        tasks := { s.tasks with fan := { s.tasks.fan with outputs := s.outputs.set i o } }
        calls := s.calls ++ writeCall i a o }
    else none
  | .shutdown =>
    match s.phase with
    | .running => some { s with phase := .stopping }
    | _ => none
  | .proceed =>
    match s.phase with
    | .stopping => if s.tasks.sourcesEnded then some { s with phase := .draining } else none
    | .draining => if s.tasks.ended then some { s with phase := .endingLoops } else none
    | .endingLoops =>
      if s.outputs.all fun o => o.phase = .ended then some { s with phase := s.finishFrom 0 }
      else none
    | _ => none
  | .endLoop i =>
    match s.phase with
    | .endingLoops => s.onOutput i OutputTask.stop
    | _ => none
  | .finish writes failure =>
    match s.phase with
    | .finishing i => do
      let o ← s.outputs[i]?
      let (o, calls) := finish o i writes failure
      return { s with
        phase := s.finishFrom (i + 1)
        tasks := { s.tasks with fan := { s.tasks.fan with outputs := s.outputs.set i o } }
        calls := s.calls ++ calls }
    | _ => none

def next (s : Service) (e : ServiceEvent) : Service := (s.step e).getD s

def run (s : Service) (events : List ServiceEvent) : Service := events.foldl next s

end Service

end MetricAgent
