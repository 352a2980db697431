import MetricAgent.Tick.Schedule

/-!
# Tickers

A ticker waits for the deadlines of a schedule, one after the other. Waiting
may be abandoned. The next wait is then for the same deadline, as long as that
lies ahead; only after it has passed, or has been reached by a wait, is the
schedule asked for another one. The jitter of a new deadline is drawn below a
bound by whoever runs the ticker.
-/

namespace MetricAgent

/-- A schedule, the bound of its jitter, and the deadline of a wait that has
not ended. -/
structure Ticker where
  schedule : Schedule
  jitter : Duration
  pending : Option Duration
deriving DecidableEq, Repr

namespace Ticker

def make (interval jitter : Duration) (aligned : Bool) (now : Duration) :
    Except ScheduleError Ticker := do
  return ⟨← Schedule.make interval aligned now, jitter, none⟩

/-- Begins a wait, and says until when. The jitter drawn counts only if there is
no deadline left to wait for. -/
def begin? (t : Ticker) (now draw : Duration) : Option (Ticker × Duration) :=
  let fresh := do
    let (schedule, deadline) ← t.schedule.next? now draw
    return (({ t with schedule := schedule, pending := some deadline } : Ticker), deadline)
  match t.pending with
  | some deadline => if now < deadline then some (t, deadline) else fresh
  | none => fresh

def finish (t : Ticker) : Ticker := { t with pending := none }

/-- A whole tick on a clock that a wait moves on to the deadline. -/
def tick? (t : Ticker) (now draw : Duration) : Option (Ticker × Duration) := do
  let (t, deadline) ← t.begin? now draw
  return (t.finish, deadline)

end Ticker

end MetricAgent
