import MetricAgent.Time.Timestamp

/-!
# Windows of aggregation

A window is a period of time that ends some delay before it is due. Windows
follow one another without a gap, and those that nobody was there to close are
skipped: `next?` gives the first window after this one that is not due yet. It
is found by a division and not by counting. Where timestamps end there may be
no such window.
-/

namespace MetricAgent

/-- A window, the length of all windows, and how late one is due after its end. -/
structure Window where
  start : Timestamp
  stop : Timestamp
  period : Duration
  delay : Duration
deriving DecidableEq, Repr

namespace Window

def make (start : Timestamp) (period delay : Duration) : Window :=
  ⟨start, start.add period, period, delay⟩

def deadline (w : Window) : Timestamp := w.stop.add w.delay

def following (w : Window) : Window := { w with start := w.stop, stop := w.stop.add w.period }

def later (w : Window) (n : Nat) : Window :=
  { w with
    start := Timestamp.saturate (w.start.nanos + n * Timestamp.span w.period)
    stop := Timestamp.saturate (w.stop.nanos + n * Timestamp.span w.period) }

/-- How many further periods bring the deadline past a time. -/
def periodsPast (w : Window) (now : Timestamp) : Nat :=
  ((now.nanos - Timestamp.span w.delay - w.stop.nanos) / Timestamp.span w.period + 1).toNat

/-- The first window after this one that is not due at a time. There is none if
timestamps end there. -/
def next? (w : Window) (now : Timestamp) : Option Window :=
  if now.nanos = Timestamp.maxNanos then none
  else some ((w.following).later ((w.following).periodsPast now))

end Window

end MetricAgent
