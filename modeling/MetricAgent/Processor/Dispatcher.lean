import MetricAgent.Processor.Basic

/-!
# Dispatching metrics to workers

A dispatcher spreads a processor over several workers. Metrics are numbered on
their way in and wait in a queue until a worker picks them up; results go
through a second queue to one emitter, which sends them on. An ordered emitter
keeps results back until all earlier ones have been sent, an unordered one
sends them as they come.

A permit goes with each metric from before it is queued until its result has
been sent. There are as many permits as either queue has places, so the
permits bound everything that waits inside.

`step` is one action of one of the parties, and gives nothing where it cannot
happen. Any interleaving of the parties is a list of actions. `settle` runs
one of them, in which the later parties go first.
-/

namespace MetricAgent

structure Job where
  seq : Nat
  metric : Metric

structure JobResult where
  seq : Nat
  metrics : List Metric

structure Dispatcher where
  ordered : Bool
  workers : Nat
  /-- The places of either queue. -/
  queueSize : Nat
  /-- The permits that are not in use. -/
  permits : Nat
  nextSeq : Nat
  /-- A metric that has its permit and waits for a place in the queue. -/
  entering : Option Job
  jobs : List Job
  /-- The metrics that workers are transforming. -/
  busy : List Job
  /-- The results that workers have not handed over. -/
  holding : List JobResult
  results : List JobResult
  /-- The results that wait for earlier ones. -/
  waiting : List JobResult
  nextOut : Nat
  /-- What is left of the result that is being sent. -/
  emitting : Option (List Metric)
  sent : List Metric

inductive DispatchAction where
  /-- A metric comes in and takes a permit. -/
  | enqueue (m : Metric)
  /-- It gets a place in the queue. -/
  | queueUp
  | pick
  | finish (i : Nat)
  | handOver (i : Nat)
  | receive
  /-- The ordered emitter begins with the result that is next in order. -/
  | start
  | send
  /-- The emitter is done with a result and gives its permit back. -/
  | release

namespace Dispatcher

def make (ordered : Bool) (workers queueSize : Nat) : Dispatcher :=
  { ordered := ordered
    workers := max workers 1
    queueSize := max queueSize 1
    permits := max queueSize 1
    nextSeq := 0
    entering := none
    jobs := []
    busy := []
    holding := []
    results := []
    waiting := []
    nextOut := 0
    emitting := none
    sent := [] }

def nextWaiting? (d : Dispatcher) : Option JobResult := d.waiting.find? fun r => r.seq == d.nextOut

def sendNext? (d : Dispatcher) : Option (Metric × Dispatcher) :=
  match d.emitting with
  | some (m :: rest) => some (m, { d with emitting := some rest })
  | _ => none

def step (p : Processor) (d : Dispatcher) : DispatchAction → Option Dispatcher
  | .enqueue m =>
    if d.permits = 0 ∨ d.entering.isSome then none
    else some { d with
      permits := d.permits - 1
      nextSeq := d.nextSeq + 1
      entering := some ⟨d.nextSeq, m⟩ }
  | .queueUp =>
    match d.entering with
    | some job =>
      if d.jobs.length < d.queueSize then
        some { d with entering := none, jobs := d.jobs ++ [job] }
      else none
    | none => none
  | .pick =>
    match d.jobs with
    | job :: rest =>
      if d.busy.length + d.holding.length < d.workers then
        some { d with jobs := rest, busy := d.busy ++ [job] }
      else none
    | [] => none
  | .finish i =>
    match d.busy[i]? with
    | some job => some { d with
        busy := d.busy.eraseIdx i
        holding := d.holding ++ [⟨job.seq, p.yields job.metric⟩] }
    | none => none
  | .handOver i =>
    match d.holding[i]? with
    | some r =>
      if d.results.length < d.queueSize then
        some { d with holding := d.holding.eraseIdx i, results := d.results ++ [r] }
      else none
    | none => none
  | .receive =>
    match d.results, d.emitting, d.nextWaiting? with
    | r :: rest, none, none =>
      if d.ordered then some { d with results := rest, waiting := d.waiting ++ [r] }
      else some { d with results := rest, emitting := some r.metrics }
    | _, _, _ => none
  | .start =>
    match d.emitting, d.nextWaiting? with
    | none, some r => some { d with
        waiting := d.waiting.filter fun w => w.seq != d.nextOut
        emitting := some r.metrics }
    | _, _ => none
  | .send => d.sendNext?.map fun (m, d) => { d with sent := d.sent ++ [m] }
  | .release =>
    match d.emitting with
    | some [] => some { d with
        emitting := none
        permits := d.permits + 1
        nextOut := d.nextOut + 1 }
    | _ => none

/-- What can happen next without another metric, the later parties first. -/
def nextAction? (d : Dispatcher) : Option DispatchAction :=
  match d.emitting with
  | some [] => some .release
  | some (_ :: _) => some .send
  | none =>
    if d.nextWaiting?.isSome then some .start
    else if !d.results.isEmpty then some .receive
    else if !d.holding.isEmpty then some (.handOver 0)
    else if !d.busy.isEmpty then some (.finish 0)
    else if !d.jobs.isEmpty then some .pick
    else if d.entering.isSome then some .queueUp
    else none

def total {α : Type} (value : α → Nat) (xs : List α) : Nat := xs.foldr (fun x n => value x + n) 0

/-- An upper bound of the actions that are left without another metric. -/
def work (p : Processor) (d : Dispatcher) : Nat :=
  let ofResult (r : JobResult) : Nat := r.metrics.length
  let ofJob (j : Job) : Nat := (p.yields j.metric).length
  total (fun j => ofJob j + 7) d.entering.toList + total (fun j => ofJob j + 6) d.jobs +
    total (fun j => ofJob j + 5) d.busy + total (fun r => ofResult r + 4) d.holding +
    total (fun r => ofResult r + 3) d.results + total (fun r => ofResult r + 2) d.waiting +
    total (fun ms => ms.length + 1) d.emitting.toList

def settleWithin (p : Processor) : Nat → Dispatcher → Dispatcher
  | 0, d => d
  | fuel + 1, d =>
    match d.nextAction?.bind (d.step p) with
    | some d => settleWithin p fuel d
    | none => d

/-- Runs until nothing can happen without another metric. -/
def settle (p : Processor) (d : Dispatcher) : Dispatcher := settleWithin p (d.work p) d

def enqueueAll (p : Processor) (d : Dispatcher) (ms : List Metric) : Dispatcher :=
  ms.foldl (fun d m => ((d.step p (.enqueue m)).getD d).settle p) d

end Dispatcher

end MetricAgent
