import MetricAgent.Time.Duration

/-!
# Schedules

A schedule says when the next tick is due. Ticks lie on a grid: whole
intervals after an anchor, which is the epoch for an aligned schedule and the
moment of its making for any other. The base of a tick is the first point of
the grid after the present, so points that have passed meanwhile are skipped,
but never one that is not after the base before it, even if the clock has been
set back. A tick is due some jitter after its base.

Nothing here reads a clock or draws a number; both are arguments.
-/

namespace MetricAgent

/-- The grid of ticks, and the base of the last one. -/
structure Schedule where
  interval : Duration
  anchor : Duration
  lastBase : Option Duration
deriving DecidableEq, Repr

inductive ScheduleError where
  | zeroInterval
deriving DecidableEq, Repr

def ScheduleError.message : ScheduleError → String
  | .zeroInterval => "tick interval must be greater than zero"

namespace Schedule

def make (interval : Duration) (aligned : Bool) (now : Duration) : Except ScheduleError Schedule :=
  if interval.isZero then .error .zeroInterval
  else .ok ⟨interval, if aligned then Duration.zero else now, none⟩

/-- The first point of the grid after a time, if it is in range. -/
def gridPoint? (s : Schedule) (now : Duration) : Option Duration :=
  let periods := (now.sub s.anchor).nanos / s.interval.nanos + 1
  s.anchor.add? (Duration.ofNanos (periods * s.interval.nanos))

/-- The base of the next tick: the first point after the present that is also
after the base before it. -/
def nextBase? (s : Schedule) (now : Duration) : Option Duration := do
  let base ← s.gridPoint? now
  match s.lastBase with
  | some last => if base ≤ last then last.add? s.interval else some base
  | none => some base

/-- The deadline of the next tick. There is none past the longest duration. -/
def next? (s : Schedule) (now jitter : Duration) : Option (Schedule × Duration) := do
  let base ← s.nextBase? now
  let deadline ← base.add? jitter
  return ({ s with lastBase := some base }, deadline)

end Schedule

end MetricAgent
