import MetricAgent.Metric.Basic

/-!
# Metrics as lines of JSON

Each metric becomes one line: an object with the name, the tags and the fields
in the order of their keys, and the timestamp in a unit that the writer was
made with. Infinite and undefined numbers are left out. The unit is a power of
ten of nanoseconds: the greatest that is no longer than the one asked for.
-/

namespace MetricAgent

structure LineWriter where
  unit : Duration
deriving DecidableEq, Repr

namespace LineWriter

/-- The greatest power of ten from `candidate` on that is no longer than
`requested`. The search looks one power further than it keeps, and fails if
that one is no duration. -/
def powerOfTen (requested : Duration) : Nat → Duration → Option Duration
  | 0, candidate => some candidate
  | fuel + 1, candidate => do
    let next ← Duration.mul? 10 candidate
    if next ≤ requested then powerOfTen requested fuel next else some candidate

/-- A writer whose unit is at most the one asked for. No length asks for
seconds. There is no writer for `10 ^ 19` seconds or more, and 29 steps cover
all powers of ten that are durations. -/
def make? (requested : Duration) : Option LineWriter :=
  if requested.isZero then some ⟨Duration.ofSeconds 1⟩
  else (powerOfTen requested 29 (Duration.ofNanos 1)).map LineWriter.mk

/-- The timestamp in the writer's unit, rounded down. -/
def time (w : LineWriter) (t : Timestamp) : Int := t.nanos / Timestamp.span w.unit

def line (w : LineWriter) (m : Metric) : List Char :=
  Json.object [
    ("name", Json.string m.name),
    ("tags", Json.object ((SortedPairs.ofList m.tags).map fun t => (t.1, Json.string t.2))),
    ("fields", Json.object
      ((SortedPairs.ofList (m.fields.filter fun f => !f.2.isNonFinite)).map fun f => (f.1, f.2.json))),
    ("timestamp", Json.integer (w.time m.timestamp))]

def lines (w : LineWriter) (ms : List Metric) : List Char :=
  ms.flatMap fun m => w.line m ++ ['\n']

@[simp] theorem lines_nil (w : LineWriter) : w.lines [] = [] := rfl

theorem lines_cons (w : LineWriter) (m : Metric) (ms : List Metric) :
    w.lines (m :: ms) = w.line m ++ '\n' :: w.lines ms := by
  simp [lines]

end LineWriter

end MetricAgent
