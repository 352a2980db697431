import MetricAgent.Processor.Dispatcher

/-!
# Stopping a dispatcher

A dispatcher stops from its front to its back. First the queue of metrics is
closed, by the one who enqueues and who is therefore not enqueueing. A worker
leaves when it finds the closed queue empty, so never in the middle of a
metric. When all workers have left, nobody can hand over a result any more, and
the emitter ends once it has taken all there are. Then the dispatcher has
stopped.

The emitter does not look at the results that it keeps back when it ends. That
there are none is a property of the whole run.
-/

namespace MetricAgent

/-- A dispatcher with what is known of its callers and of its workers. -/
structure DispatcherRun where
  dispatcher : Dispatcher
  enqueued : List Metric
  closed : Bool
  /-- The number of workers that have left. -/
  left : Nat
  /-- Whether the emitter has ended. -/
  stopped : Bool

inductive DispatcherEvent where
  | act (a : DispatchAction)
  | close
  | leave
  | stop

def DispatchAction.enqueued? : DispatchAction → Option Metric
  | .enqueue m => some m
  | _ => none

namespace DispatcherRun

def start (ordered : Bool) (workers queueSize : Nat) : DispatcherRun :=
  ⟨.make ordered workers queueSize, [], false, 0, false⟩

def step (p : Processor) (r : DispatcherRun) : DispatcherEvent → Option DispatcherRun
  | .act a =>
    if r.closed && a.enqueued?.isSome then none
    else (r.dispatcher.step p a).map fun d =>
      { r with dispatcher := d, enqueued := r.enqueued ++ a.enqueued?.toList }
  | .close =>
    if r.dispatcher.entering.isSome then none else some { r with closed := true }
  | .leave =>
    let d := r.dispatcher
    if r.closed ∧ d.jobs = [] ∧ d.busy.length + d.holding.length + r.left < d.workers then
      some { r with left := r.left + 1 }
    else none
  | .stop =>
    let d := r.dispatcher
    if r.left = d.workers ∧ d.results = [] ∧ d.emitting = none ∧ d.nextWaiting? = none then
      some { r with stopped := true }
    else none

def next (p : Processor) (r : DispatcherRun) (e : DispatcherEvent) : DispatcherRun :=
  (r.step p e).getD r

def run (p : Processor) (r : DispatcherRun) (events : List DispatcherEvent) : DispatcherRun :=
  events.foldl (next p) r

end DispatcherRun

end MetricAgent
