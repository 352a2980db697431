import MetricAgent.Aggregator.Window

/-!
# Windows move forward

The next window of an aggregator ends where nothing is due yet, and no earlier
than the one before. Timestamps may be cut off at either end of their range;
the latest one, at which there is no next window, is the only exception.
-/

namespace MetricAgent

namespace Timestamp

theorem nanos_saturate_le {m n : Int} (h : m ≤ n) : (saturate m).nanos ≤ (saturate n).nanos := by
  rw [nanos_saturate, nanos_saturate]
  omega

theorem span_pos {d : Duration} (h : 0 < d.nanos) : 0 < span d := by
  unfold span
  omega

theorem le_add (t : Timestamp) (d : Duration) : t ≤ t.add d := by
  have hd := span_nonneg d
  have hlo := t.min_le
  have hhi := t.le_max
  change t.nanos ≤ (saturate (t.nanos + span d)).nanos
  rw [nanos_saturate]
  omega

theorem add_le_add {s t : Timestamp} (h : s ≤ t) (d : Duration) : s.add d ≤ t.add d := by
  have hle : s.nanos ≤ t.nanos := h
  exact nanos_saturate_le (by omega)

end Timestamp

namespace Window

variable {w v : Window} {now : Timestamp}

theorem deadline_le_following (w : Window) : w.deadline ≤ w.following.deadline :=
  Timestamp.add_le_add (Timestamp.le_add w.stop w.period) w.delay

theorem deadline_le_later (w : Window) (n : Nat) : w.deadline ≤ (w.later n).deadline := by
  refine Timestamp.add_le_add ?_ w.delay
  have hn : 0 ≤ (n : Int) * Timestamp.span w.period :=
    Int.mul_nonneg (Int.natCast_nonneg n) (Timestamp.span_nonneg w.period)
  have hlo := w.stop.min_le
  have hhi := w.stop.le_max
  change w.stop.nanos ≤ (Timestamp.saturate _).nanos
  rw [Timestamp.nanos_saturate]
  omega

/-- The division finds a window that is not due. -/
theorem lt_deadline_later (hperiod : 0 < w.period.nanos) (hnow : now.nanos < Timestamp.maxNanos) :
    now < (w.later (w.periodsPast now)).deadline := by
  have hspan := Timestamp.span_pos hperiod
  have hdelay := Timestamp.span_nonneg w.delay
  have hlo := w.stop.min_le
  have hquot := Int.lt_ediv_add_one_mul_self
    (now.nanos - Timestamp.span w.delay - w.stop.nanos) hspan
  have hcount := Int.self_le_toNat
    ((now.nanos - Timestamp.span w.delay - w.stop.nanos) / Timestamp.span w.period + 1)
  have hpast := Int.mul_le_mul_of_nonneg_right hcount (Int.le_of_lt hspan)
  change now.nanos < (Timestamp.saturate _).nanos
  simp only [later, periodsPast, Timestamp.nanos_saturate]
  unfold Timestamp.maxNanos at hnow
  omega

theorem next?_eq_some_iff :
    w.next? now = some v ↔ now.nanos < Timestamp.maxNanos ∧
      w.following.later (w.following.periodsPast now) = v := by
  have hle := now.le_max
  unfold next? Timestamp.maxNanos
  rw [Option.ite_none_left_eq_some, Option.some.injEq]
  refine and_congr_left fun _ => ?_
  omega

theorem next?_eq_none (h : ¬ now.nanos < Timestamp.maxNanos) : w.next? now = none :=
  Option.eq_none_iff_forall_ne_some.2 fun _ hv => h (next?_eq_some_iff.1 hv).1

theorem lt_deadline_of_next? (h : w.next? now = some v) (hperiod : 0 < w.period.nanos) :
    now < v.deadline := by
  obtain ⟨hnow, rfl⟩ := next?_eq_some_iff.1 h
  exact lt_deadline_later hperiod hnow

theorem deadline_le_of_next? (h : w.next? now = some v) : w.deadline ≤ v.deadline := by
  obtain ⟨-, rfl⟩ := next?_eq_some_iff.1 h
  exact Int.le_trans (deadline_le_following w) (deadline_le_later w.following _)

theorem period_of_next? (h : w.next? now = some v) : v.period = w.period := by
  obtain ⟨-, rfl⟩ := next?_eq_some_iff.1 h
  rfl

end Window

end MetricAgent
