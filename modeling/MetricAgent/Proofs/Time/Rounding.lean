import Mathlib.Order.Bounds.Basic
import MetricAgent.Time.Timestamp

/-!
# Rounding timestamps down

Rounding down finds the last multiple of some nanoseconds that does not come after a
timestamp. There may be none among the timestamps, and then the earliest of them takes
its place. So what rounding can give are the multiples and the earliest timestamp
(`Timestamp.IsRounded`), and it gives the last of these that does not come after
(`Timestamp.isGreatest_floor`).

That is all there is to know about it. Rounding keeps the order, and changes nothing
when it is done twice. The multiples of a multiple are among the multiples, so of two
roundings, one to multiples of the other, only the coarser one is seen
(`Timestamp.floor_floor_of_dvd`). The ends of the range are no exception.
-/

namespace MetricAgent

/-- The last multiple of a number of nanoseconds that does not come after a
timestamp, or the earliest timestamp if there is none. -/
def Timestamp.floor (t : Timestamp) (n : Nat) : Timestamp := saturate (t.nanos / n * n)

/-- A timestamp is the last multiple of some nanoseconds up to another one, unless that
comes before the earliest timestamp. -/
structure Timestamp.IsFloor (floor t : Timestamp) (n : Nat) : Prop where
  le : floor ≤ t
  lt : t.nanos < floor.nanos + n
  dvd_or : (n : Int) ∣ floor.nanos ∨ floor.nanos = minNanos

namespace Timestamp

variable {r s t : Timestamp} {m n : Nat}

def IsRounded (n : Nat) (r : Timestamp) : Prop := (n : Int) ∣ r.nanos ∨ r.nanos = minNanos

theorem IsRounded.of_dvd (h : IsRounded n r) (hmn : m ∣ n) : IsRounded m r :=
  h.imp_left (Int.dvd_trans (Int.natCast_dvd_natCast.2 hmn))

theorem isGreatest_multiple (hn : 1 ≤ n) (x : Int) :
    IsGreatest {k : Int | (n : Int) ∣ k ∧ k ≤ x} (x / n * n) := by
  have hpos : (0 : Int) < n := by omega
  refine ⟨⟨Int.dvd_mul_left _ _, Int.ediv_mul_le x (Int.ne_of_gt hpos)⟩, ?_⟩
  rintro _ ⟨⟨k, rfl⟩, hk⟩
  rw [Int.mul_comm] at hk ⊢
  exact Int.mul_le_mul_of_nonneg_right ((Int.le_ediv_iff_mul_le hpos).2 hk) (Int.le_of_lt hpos)

theorem nanos_floor (hn : 1 ≤ n) (t : Timestamp) :
    (t.floor n).nanos = max minNanos (t.nanos / n * n) := by
  have hle : t.nanos / n * n ≤ t.nanos := (isGreatest_multiple hn t.nanos).1.2
  have hmax := t.le_max
  refine (nanos_saturate _).trans ?_
  unfold minNanos
  omega

/-- Rounding down gives the last of what it can give that does not come after. -/
theorem isGreatest_floor (hn : 1 ≤ n) (t : Timestamp) :
    IsGreatest {r | IsRounded n r ∧ r ≤ t} (t.floor n) := by
  have hnanos := nanos_floor hn t
  obtain ⟨⟨hdvd, hle⟩, hgreatest⟩ := isGreatest_multiple hn t.nanos
  have hmin : minNanos ≤ t.nanos := t.min_le
  refine ⟨⟨?_, ?_⟩, ?_⟩
  · rcases Int.le_total minNanos (t.nanos / n * n) with h | h
    · rw [Int.max_eq_right h] at hnanos
      exact .inl (hnanos ▸ hdvd)
    · exact .inr (hnanos.trans (Int.max_eq_left h))
  · change (t.floor n).nanos ≤ t.nanos
    omega
  · rintro r ⟨hr | hr, hrt⟩
    · have hmultiple : r.nanos ≤ t.nanos / n * n := hgreatest ⟨hr, hrt⟩
      change r.nanos ≤ (t.floor n).nanos
      omega
    · change r.nanos ≤ (t.floor n).nanos
      omega

theorem floor_le (hn : 1 ≤ n) (t : Timestamp) : t.floor n ≤ t := (isGreatest_floor hn t).1.2

theorem isRounded_floor (hn : 1 ≤ n) (t : Timestamp) : IsRounded n (t.floor n) :=
  (isGreatest_floor hn t).1.1

theorem le_floor_iff (hn : 1 ≤ n) (hr : IsRounded n r) : r ≤ t.floor n ↔ r ≤ t :=
  ⟨fun h => Int.le_trans h (floor_le hn t), fun h => (isGreatest_floor hn t).2 ⟨hr, h⟩⟩

theorem lt_floor_add (hn : 1 ≤ n) (t : Timestamp) : t.nanos < (t.floor n).nanos + n := by
  have hlt := Int.lt_ediv_add_one_mul_self t.nanos (b := n) (by omega)
  rw [Int.add_mul, Int.one_mul] at hlt
  rw [nanos_floor hn t]
  omega

theorem isFloor_floor (t : Timestamp) (hn : 1 ≤ n) : (t.floor n).IsFloor t n :=
  ⟨floor_le hn t, lt_floor_add hn t, isRounded_floor hn t⟩

theorem floor_le_floor (hn : 1 ≤ n) (h : s ≤ t) : s.floor n ≤ t.floor n :=
  (le_floor_iff hn (isRounded_floor hn s)).2 (Int.le_trans (floor_le hn s) h)

/-- Of two roundings, the second one to multiples of the first, only the second is
seen. -/
theorem floor_floor_of_dvd (hm : 1 ≤ m) (hn : 1 ≤ n) (hmn : m ∣ n) (t : Timestamp) :
    (t.floor m).floor n = t.floor n := by
  have hrounded := isRounded_floor hn t
  refine ext (Int.le_antisymm ?_ ?_)
  · exact floor_le_floor hn (floor_le hm t)
  · refine (le_floor_iff hn hrounded).2 ?_
    exact (le_floor_iff hm (hrounded.of_dvd hmn)).2 (floor_le hn t)

/-! ### Precisions -/

theorem truncate_eq_floor (t : Timestamp) {d : Duration} (hle : 1 ≤ d.nanos)
    (hge : (d.nanos : Int) ≤ maxNanos) : t.truncate d = t.floor d.nanos := by
  have hspan : span d = d.nanos := Int.min_eq_left hge
  unfold truncate floor
  rw [hspan]
  split
  · next h =>
    have hone : (d.nanos : Int) = 1 := by omega
    rw [hone, Int.ediv_one, Int.mul_one, saturate_nanos]
  · rfl

/-- Truncating rounds down, to the last multiple of the precision or, where that is no
timestamp, to the earliest one. It keeps the order, and a finer precision does not show
behind a coarser one. -/
theorem truncate_rounds_down {p : Duration} (hp : 1 ≤ p.nanos) (hmax : (p.nanos : Int) ≤ maxNanos) :
    (∀ t : Timestamp, t.truncate p ≤ t ∧ t.nanos - (t.truncate p).nanos < p.nanos ∧
      ∃ k, IsGreatest {k : Int | (p.nanos : Int) ∣ k ∧ k ≤ t.nanos} k ∧
        (minNanos ≤ k → (t.truncate p).nanos = k) ∧
        (k < minNanos → (t.truncate p).nanos = minNanos)) ∧
    (∀ s t : Timestamp, s ≤ t → s.truncate p ≤ t.truncate p) ∧
    (∀ t : Timestamp, (t.truncate p).truncate p = t.truncate p) ∧
    ∀ q : Duration, 1 ≤ q.nanos → (q.nanos : Int) ≤ maxNanos → p.nanos ∣ q.nanos →
      ∀ t : Timestamp, (t.truncate p).truncate q = t.truncate q := by
  have hfloor := fun t => truncate_eq_floor t hp hmax
  have hcoarser : ∀ q : Duration, 1 ≤ q.nanos → (q.nanos : Int) ≤ maxNanos → p.nanos ∣ q.nanos →
      ∀ t : Timestamp, (t.truncate p).truncate q = t.truncate q := by
    intro q hq hqmax hdvd t
    rw [truncate_eq_floor _ hq hqmax, truncate_eq_floor _ hq hqmax, hfloor]
    exact floor_floor_of_dvd hp hq hdvd t
  refine ⟨fun t => ?_, fun s t hst => ?_, hcoarser p hp hmax (Nat.dvd_refl _), hcoarser⟩
  · rw [hfloor]
    have hlt := lt_floor_add hp t
    have hnanos := nanos_floor hp t
    exact ⟨floor_le hp t, by omega, _, isGreatest_multiple hp t.nanos,
      fun h => hnanos.trans (Int.max_eq_right h),
      fun h => hnanos.trans (Int.max_eq_left (Int.le_of_lt h))⟩
  · rw [hfloor, hfloor]
    exact floor_le_floor hp hst

/-- Just after the earliest timestamp there is no whole second to round down to, and no
whole minute. -/
theorem truncate_rounds_down_far_past :
    let t := saturate (minNanos + 1)
    let second := Duration.ofSeconds 1
    let minute := Duration.ofSeconds 60
    (1 ≤ second.nanos ∧ (second.nanos : Int) ≤ maxNanos) ∧
      (t.truncate second).nanos = minNanos ∧ ¬ (second.nanos : Int) ∣ minNanos ∧
      (t.truncate second).truncate minute = t.truncate minute := by
  intro t second minute
  obtain ⟨hrounds, -, -, hcoarser⟩ :=
    truncate_rounds_down (p := second) (by decide) (by decide)
  obtain ⟨-, -, k, hk, -, hbelow⟩ := hrounds t
  refine ⟨by decide, hbelow ?_, by decide, hcoarser minute (by decide) (by decide) (by decide) t⟩
  rw [hk.unique (isGreatest_multiple (by decide) t.nanos)]
  decide

end Timestamp

end MetricAgent
