import MetricAgent.Pipeline.Basic
import MetricAgent.Processor.Stopping

/-!
# The tasks of processors

In a running pipeline every processor has a task of its own. A task receives
from the link before it and sends into the link behind it, and links are
bounded, so a task that is faster than the next one has to wait.

A task ends when its input is over: all senders are gone, and all that they sent
has been taken. It then drops its own sender, which ends the next task in turn.
A processor that breaks down ends an inline task on the spot, and what the
earlier tasks go on to send is discarded; in a dispatcher it only costs the
result.
-/

namespace MetricAgent

/-- A bounded channel. What is sent is received in the same order. -/
structure Link where
  size : Nat
  queue : List Metric
  /-- Whether a sender is left. -/
  isOpen : Bool
  /-- Whether the receiver is left. -/
  isRead : Bool

/-- What a task does to the link behind it. -/
inductive Passage where
  | nothing
  | metric (m : Metric)
  | finish

def Passage.metrics : Passage → List Metric
  | .metric m => [m]
  | .nothing | .finish => []

def Passage.keepsSender : Passage → Bool
  | .finish => false
  | .nothing | .metric _ => true

namespace Link

def make (size : Nat) : Link := ⟨size, [], true, true⟩

/-- Whether nothing waits and nothing can come. -/
def isOver (l : Link) : Bool := l.queue.isEmpty && !l.isOpen

/-- Sends a metric as soon as there is room. Without a receiver it is lost. -/
def send? (l : Link) (m : Metric) : Option Link :=
  if l.isRead then
    if l.queue.length < l.size then some { l with queue := l.queue ++ [m] } else none
  else some l

def pass? (l : Link) : Passage → Option Link
  | .nothing => some l
  | .metric m => l.send? m
  | .finish => some { l with isOpen := false }

/-- Drops the receiver, and what waits for it. -/
def leave (l : Link) : Link := { l with queue := [], isRead := false }

end Link

inductive StageBody where
  /-- It applies the processor itself, and sends the result one by one. -/
  | inline (p : Processor) (unsent : List Metric)
  /-- It hands each metric that it has taken to a dispatcher, which sends. -/
  | spread (p : Processor) (held : Option Metric) (run : DispatcherRun)

/-- The task of a processor. It has ended when its input has no receiver. -/
structure StageTask where
  input : Link
  body : StageBody

inductive StageAction where
  | take
  | send
  | finish
  /-- The metric that was taken is handed to the dispatcher. -/
  | submit
  | dispatch (e : DispatcherEvent)

/-- What the emitter of a dispatcher sends in an action. -/
def DispatcherRun.emits (r : DispatcherRun) : DispatchAction → Passage
  | .send =>
    match r.dispatcher.sendNext? with
    | some (m, _) => .metric m
    | none => .nothing
  | _ => .nothing

namespace ProcessorStage

def processor : ProcessorStage → Processor
  | .inline p => p
  | .spread p _ => p

end ProcessorStage

namespace StageTask

def start (channelSize : Nat) : ProcessorStage → StageTask
  | .inline p => ⟨.make channelSize, .inline p []⟩
  | .spread p d => ⟨.make channelSize, .spread p none ⟨d, [], false, 0, false⟩⟩

def inlineStep (input : Link) (p : Processor) (unsent : List Metric) :
    StageAction → Option (StageTask × Passage)
  | .take =>
    match unsent, input.queue with
    | [], m :: rest =>
      match p m with
      | some ms => some (⟨{ input with queue := rest }, .inline p ms⟩, .nothing)
      | none => some (⟨input.leave, .inline p []⟩, .finish)
    | _, _ => none
  | .send =>
    match unsent with
    | m :: rest => some (⟨input, .inline p rest⟩, .metric m)
    | [] => none
  | .finish =>
    if unsent.isEmpty && input.isOver then some (⟨input.leave, .inline p []⟩, .finish) else none
  | .submit | .dispatch _ => none

/-- An action of a task with a dispatcher. Nothing is taken while a metric waits
to be queued, and the queue is closed only when the input is over. With the
emitter the sender is gone, and the task has nothing more to do. -/
def spreadStep (input : Link) (p : Processor) (held : Option Metric) (run : DispatcherRun) :
    StageAction → Option (StageTask × Passage)
  | .take =>
    match held, input.queue with
    | none, m :: rest =>
      if run.dispatcher.entering.isSome then none
      else some (⟨{ input with queue := rest }, .spread p (some m) run⟩, .nothing)
    | _, _ => none
  | .submit =>
    match held with
    | some m =>
      (run.step p (.act (.enqueue m))).map fun run => (⟨input, .spread p none run⟩, .nothing)
    | none => none
  | .dispatch .close =>
    if held.isNone && input.isOver then
      (run.step p .close).map fun run => (⟨input, .spread p held run⟩, .nothing)
    else none
  | .dispatch .leave =>
    (run.step p .leave).map fun run => (⟨input, .spread p held run⟩, .nothing)
  | .dispatch .stop =>
    (run.step p .stop).map fun run => (⟨input.leave, .spread p held run⟩, .finish)
  | .dispatch (.act a) =>
    if a.enqueued?.isSome then none
    else (run.step p (.act a)).map fun next => (⟨input, .spread p held next⟩, run.emits a)
  | .send | .finish => none

/-- An action of a task that has not ended, and what it passes on. -/
def step (t : StageTask) (a : StageAction) : Option (StageTask × Passage) :=
  if t.input.isRead then
    match t.body with
    | .inline p unsent => inlineStep t.input p unsent a
    | .spread p held run => spreadStep t.input p held run a
  else none

end StageTask

end MetricAgent
