import MetricAgent.Aggregator.Running

/-!
# The stage of aggregators

All aggregators of a pipeline look at the same metrics. A metric that comes in
is offered to each of them and goes on unless one withholds it. A timer wakes
the stage when the first of the aggregators is due, and then those that are due
push. When nothing comes in any more, all of them push once, due or not.

A history is a list of events, each with the time of the clock at which the
stage handles it. At the last timestamp a push never ends, so no run gets past
one, and what a history says after it is about no run.
-/

namespace MetricAgent

inductive StageEvent where
  | metric (m : Metric)
  | timer
  | stop

namespace AggregatorStage

variable {α : Type} [Aggregating α]

/-- Offers a metric to each aggregator, and says whether one withholds it. -/
def offerAll (m : Metric) : List (Running α) → List (Running α) × Bool
  | [] => ([], false)
  | a :: rest =>
    let (a, withheld) := a.add m
    let (rest, others) := offerAll m rest
    (a :: rest, withheld || others)

/-- Pushes an aggregator. Where `push?` has no result, the push never ends. Histories
go on there with the aggregator as it was and nothing given out, only to have a
next state at every event. -/
def push (now : Timestamp) (a : Running α) : Running α × List Metric := (a.push? now).getD (a, [])

def pushWhere (now : Timestamp) (test : Running α → Bool) :
    List (Running α) → List (Running α) × List Metric
  | [] => ([], [])
  | a :: rest =>
    let (a, out) := if test a then push now a else (a, [])
    let (rest, others) := pushWhere now test rest
    (a :: rest, out ++ others)

def isDue (now : Timestamp) (a : Running α) : Bool := a.deadline ≤ now

/-- Handles an event, and gives what goes on to the outputs. -/
def step (stage : List (Running α)) (now : Timestamp) :
    StageEvent → List (Running α) × List Metric
  | .metric m =>
    let (stage, withheld) := offerAll m stage
    (stage, if withheld then [] else [m])
  | .timer => pushWhere now (isDue now) stage
  | .stop => pushWhere now (fun _ => true) stage

def run (stage : List (Running α)) : List (Timestamp × StageEvent) →
    List (Running α) × List Metric
  | [] => (stage, [])
  | (now, e) :: rest =>
    let (stage, out) := step stage now e
    let (stage, further) := run stage rest
    (stage, out ++ further)

/-- Handles metrics that come in at one time. Without aggregators they go on. -/
def feed (stage : List (Running α)) (now : Timestamp) (ms : List Metric) :
    List (Running α) × List Metric :=
  run stage (ms.map fun m => (now, .metric m))

def earlier (s t : Timestamp) : Timestamp := if t < s then t else s

def deadline? (stage : List (Running α)) : Option Timestamp :=
  match stage.map Running.deadline with
  | [] => none
  | t :: ts => some (ts.foldl earlier t)

@[simp] theorem offerAll_nil (m : Metric) : offerAll m ([] : List (Running α)) = ([], false) := rfl

@[simp] theorem run_nil (stage : List (Running α)) : run stage [] = (stage, []) := rfl

theorem run_cons (stage : List (Running α)) (now : Timestamp) (e : StageEvent)
    (rest : List (Timestamp × StageEvent)) :
    run stage ((now, e) :: rest) =
      let (next, out) := step stage now e
      let (last, further) := run next rest
      (last, out ++ further) := rfl

end AggregatorStage

end MetricAgent
