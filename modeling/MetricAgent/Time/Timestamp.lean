import MetricAgent.Time.Duration

/-!
# Timestamps

A timestamp is a count of nanoseconds since the epoch that fits into a signed
64-bit word. Every operation first computes over the integers and then brings
the result back with `saturate`, so the only thing to know about the ends of
the range is `saturate` itself. Durations enter through `span`, which is
cut off at the greatest timestamp.
-/

namespace MetricAgent

/-- Nanoseconds since the epoch, in the signed 64-bit range. -/
structure Timestamp where
  nanos : Int
  min_le : -0x8000000000000000 ≤ nanos
  le_max : nanos ≤ 0x7fffffffffffffff
deriving DecidableEq, Repr

namespace Timestamp

def minNanos : Int := -0x8000000000000000

def maxNanos : Int := 0x7fffffffffffffff

def epoch : Timestamp := ⟨0, by decide, by decide⟩

instance : Inhabited Timestamp := ⟨epoch⟩

instance : LE Timestamp := ⟨fun a b => a.nanos ≤ b.nanos⟩

instance : LT Timestamp := ⟨fun a b => a.nanos < b.nanos⟩

instance (a b : Timestamp) : Decidable (a ≤ b) :=
  inferInstanceAs (Decidable (a.nanos ≤ b.nanos))

instance (a b : Timestamp) : Decidable (a < b) :=
  inferInstanceAs (Decidable (a.nanos < b.nanos))

instance : Ord Timestamp := ⟨fun a b => compare a.nanos b.nanos⟩

def saturate (n : Int) : Timestamp :=
  if hlo : n < -0x8000000000000000 then ⟨-0x8000000000000000, by decide, by decide⟩
  else if hhi : 0x7fffffffffffffff < n then ⟨0x7fffffffffffffff, by decide, by decide⟩
  else ⟨n, by omega, by omega⟩

/-- A duration in nanoseconds, cut off where timestamps end. -/
def span (d : Duration) : Int := min (d.nanos : Int) (0x7fffffffffffffff)

def ofSeconds (s : Int) : Timestamp := saturate (s * 1000000000)

def ofDuration (d : Duration) : Timestamp := saturate (span d)

def beforeEpoch (d : Duration) : Timestamp := saturate (-span d)

def add (t : Timestamp) (d : Duration) : Timestamp := saturate (t.nanos + span d)

def sub (t : Timestamp) (d : Duration) : Timestamp := saturate (t.nanos - span d)

/-- Rounds a timestamp down to a multiple of the precision. A precision of at
most one nanosecond leaves it as it is. -/
def truncate (t : Timestamp) (precision : Duration) : Timestamp :=
  if span precision ≤ 1 then t
  else saturate (t.nanos / span precision * span precision)

/-- The time from `earlier` to `t`: no length if `t` comes first, and at most
the greatest timestamp in nanoseconds. -/
def since (t earlier : Timestamp) : Duration :=
  Duration.ofNanos (saturate (t.nanos - earlier.nanos)).nanos.toNat

def text (t : Timestamp) : String := toString t.nanos ++ "ns"

@[ext] theorem ext {a b : Timestamp} (h : a.nanos = b.nanos) : a = b := by
  cases a; cases b; cases h; rfl

theorem nanos_saturate (n : Int) :
    (saturate n).nanos = max (-0x8000000000000000) (min n (0x7fffffffffffffff)) := by
  unfold saturate
  split
  · simp only; omega
  · split <;> simp only <;> omega

theorem nanos_saturate_of_mem {n : Int} (hlo : -0x8000000000000000 ≤ n)
    (hhi : n ≤ 0x7fffffffffffffff) :
    (saturate n).nanos = n := by
  rw [nanos_saturate]; omega

@[simp] theorem saturate_nanos (t : Timestamp) : saturate t.nanos = t :=
  ext (nanos_saturate_of_mem t.min_le t.le_max)

theorem span_nonneg (d : Duration) : 0 ≤ span d := by
  unfold span; omega

end Timestamp

end MetricAgent
