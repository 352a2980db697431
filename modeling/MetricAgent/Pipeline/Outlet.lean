import MetricAgent.Sink.Basic
import MetricAgent.Tick.Ticker

/-!
# Outlets

An outlet is an output with its sink and the loop that flushes it. The loop
waits for the next tick or for a full batch, whichever comes first. The first
full batch wakes it, and one more wake is kept for when it has answered that.
So however many batches fill up before the loop gets to run, it answers two.

What happens at sinks is recorded in a log.
-/

namespace MetricAgent

inductive SinkEvent where
  | connect
  | write (w : SinkWrite)
  | close

/-- An entry of the log: when something happened, in milliseconds from the
start, at which output and which of the sinks, and what. -/
structure LogEntry where
  time : Nat
  output : String
  sink : Sink
  event : SinkEvent

structure Outlet where
  output : Output
  sink : Sink
  plan : SinkPlan
  /-- What the sink is going to do with the next writes. It is empty only if
  they all succeed. -/
  script : List Reaction
  ticker : Ticker
  /-- The tick that the loop waits for. A loop without one has ended. -/
  nextFlush : Option Duration
  /-- Whether the loop has been woken and has not run yet. -/
  woken : Bool

namespace Outlet

def make (output : Output) (sink : Sink) (files : Files) (ticker : Ticker) : Outlet :=
  let plan := sink.plan files
  ⟨output, sink, plan, plan.script ++ plan.refusals, ticker, none, false⟩

def entries (o : Outlet) (time : Nat) (events : List SinkEvent) : List LogEntry :=
  events.map fun e => ⟨time, o.output.name, o.sink, e⟩

/-- Lets the loop wait for its next tick. Past the end of time there is none,
and the loop ends. -/
def await (o : Outlet) (now : Duration) : Outlet :=
  match o.ticker.begin? now Duration.zero with
  | some (ticker, deadline) => { o with ticker := ticker, nextFlush := some deadline }
  | none => { o with nextFlush := none }

/-- Takes a metric in, which may wake the loop. Says whether it did. -/
def accept (o : Outlet) (m : Metric) : Outlet × Bool :=
  let o := { o with output := (o.output.add m).1 }
  if o.nextFlush.isSome ∧ !o.woken ∧ o.output.wakeStored then
    ({ o with output := o.output.takeWake.1, woken := true }, true)
  else (o, false)

/-- Takes over what a flush has left behind. No flush goes on after a refusal,
so one of them is enough for the next. -/
def ofFlush (o : Outlet) (f : Output.Flush) : Outlet :=
  { o with
    output := f.output.reportOverflow.1
    script := if f.script.isEmpty then o.plan.refusals else f.script }

def flushEvents (f : Output.Flush) : List SinkEvent := f.log.map .write

def flushBatch (o : Outlet) (time : Nat) : Outlet × List LogEntry :=
  let f := o.output.writeBatch o.script
  (o.ofFlush f, o.entries time (flushEvents f))

def flush (o : Outlet) (time : Nat) : Outlet × List LogEntry :=
  let f := o.output.write o.script
  (o.ofFlush f, o.entries time (flushEvents f))

/-- Lets a loop that has been woken run: once for the wake, and once more if
another one was kept. -/
def answerWake (o : Outlet) (time : Nat) (now : Duration) : Outlet × List LogEntry :=
  let (o, first) := { o with woken := false }.flushBatch time
  if o.output.wakeStored then
    let (o, second) := { o with output := o.output.takeWake.1 }.flushBatch time
    (o.await now, first ++ second)
  else (o.await now, first)

def tick (o : Outlet) (time : Nat) (now : Duration) : Outlet × List LogEntry :=
  let (o, log) := o.flush time
  ({ o with ticker := o.ticker.finish }.await now, log)

def connect (o : Outlet) (time : Nat) : Option OutputError × List LogEntry :=
  (o.plan.connectFailure.map (.connect o.output.name), o.entries time [.connect])

/-- Closes the sink, whether that succeeds or not. -/
def close (o : Outlet) (time : Nat) : List LogEntry := o.entries time [.close]

def finish (o : Outlet) (time : Nat) : Outlet × List LogEntry :=
  let (o, log) := o.flush time
  (o, log ++ o.close time)

end Outlet

end MetricAgent
