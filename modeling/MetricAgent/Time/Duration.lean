/-!
# Durations

A duration is a count of nanoseconds below `2 ^ 64` seconds. The bound is part
of the type, so an operation that could leave the range says what it does
there: `add?` and `ofNanos?` answer `none`, `ofNanos` cuts off and `sub` stops
at zero. The split into seconds and nanoseconds is only a way of reading the
count (`seconds`, `subsecond`), so order and arithmetic are those of `Nat`.
-/

namespace MetricAgent

/-- A length of time in nanoseconds, shorter than `2 ^ 64` seconds. -/
structure Duration where
  nanos : Nat
  lt_limit : nanos < UInt64.size * 1000000000
deriving DecidableEq, Repr

namespace Duration

/-- The first count of nanoseconds that is no duration. -/
def limit : Nat := UInt64.size * 1000000000

def zero : Duration := ⟨0, by decide⟩

instance : Inhabited Duration := ⟨zero⟩

instance : LE Duration := ⟨fun a b => a.nanos ≤ b.nanos⟩

instance : LT Duration := ⟨fun a b => a.nanos < b.nanos⟩

instance (a b : Duration) : Decidable (a ≤ b) := inferInstanceAs (Decidable (a.nanos ≤ b.nanos))

instance (a b : Duration) : Decidable (a < b) := inferInstanceAs (Decidable (a.nanos < b.nanos))

def seconds (d : Duration) : Nat := d.nanos / 1000000000

def subsecond (d : Duration) : Nat := d.nanos % 1000000000

def isZero (d : Duration) : Bool := d.nanos == 0

def ofNanos? (n : Nat) : Option Duration :=
  if h : n < UInt64.size * 1000000000 then some ⟨n, h⟩ else none

/-- The duration of `n` nanoseconds, where a count past the range keeps its
part below a second and gets the greatest number of seconds. -/
def ofNanos (n : Nat) : Duration :=
  if h : n < UInt64.size * 1000000000 then ⟨n, h⟩
  else ⟨(UInt64.size - 1) * 1000000000 + n % 1000000000, by
    simp only [UInt64.size]
    omega⟩

def ofSeconds (s : Nat) : Duration := ofNanos (s * 1000000000)

def ofMillis (ms : Nat) : Duration := ofNanos (ms * 1000000)

def add? (a b : Duration) : Option Duration := ofNanos? (a.nanos + b.nanos)

/-- The difference of two durations, and no length if the second is longer. -/
def sub (a b : Duration) : Duration :=
  ⟨a.nanos - b.nanos, Nat.lt_of_le_of_lt (Nat.sub_le _ _) a.lt_limit⟩

def mul? (n : Nat) (d : Duration) : Option Duration := ofNanos? (n * d.nanos)

def clamp (lo hi d : Duration) : Duration :=
  if d < lo then lo else if hi < d then hi else d

@[ext] theorem ext {a b : Duration} (h : a.nanos = b.nanos) : a = b := by
  cases a; cases b; cases h; rfl

theorem isZero_eq_false_iff {d : Duration} : d.isZero = false ↔ 0 < d.nanos := by
  simp [isZero, Nat.pos_iff_ne_zero]

theorem ofNanos?_eq_some_iff {n : Nat} {d : Duration} :
    ofNanos? n = some d ↔ d.nanos = n := by
  unfold ofNanos?
  constructor
  · intro h
    split at h
    · cases h; rfl
    · cases h
  · rintro rfl
    rw [dif_pos d.lt_limit]

theorem ofNanos?_eq_none_iff {n : Nat} : ofNanos? n = none ↔ UInt64.size * 1000000000 ≤ n := by
  unfold ofNanos?
  split <;> simp <;> omega

theorem nanos_ofNanos {n : Nat} (h : n < UInt64.size * 1000000000) : (ofNanos n).nanos = n := by
  unfold ofNanos
  rw [dif_pos h]

theorem add?_eq_some_iff {a b c : Duration} :
    add? a b = some c ↔ c.nanos = a.nanos + b.nanos :=
  ofNanos?_eq_some_iff

@[simp] theorem nanos_sub (a b : Duration) : (a.sub b).nanos = a.nanos - b.nanos := rfl

end Duration

end MetricAgent
