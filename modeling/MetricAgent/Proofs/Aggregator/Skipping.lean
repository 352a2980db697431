import Mathlib.Order.Bounds.Basic
import MetricAgent.Proofs.Aggregator.Overdue

/-!
# Window after window

A push moves on by one window and then skips those that are due, one after the
other (`Window.SkipsTo`). The windows after a window are the iterates of
`Window.following`, and skipping ends in the first of them that is not due
(`Window.skipsTo_iff`), if there is one. This is the window that a division
finds (`Window.next?_eq_some_iff_skipsTo`), however long nobody was there to push.

Where timestamps end, all windows from some point on are the same one, which is
due at the last timestamp. So at that time skipping does not come to an end, and
neither does a push: `Running.push_ends_iff`.
-/

namespace MetricAgent

namespace Timestamp

/-- Going on by a length of time in two steps: it makes no difference where the
first one was cut off. -/
theorem saturate_saturate_add {m n : Int} (hm : minNanos ≤ m) (hn : 0 ≤ n) :
    saturate ((saturate m).nanos + n) = saturate (m + n) := by
  unfold minNanos at hm
  ext
  simp only [nanos_saturate]
  omega

end Timestamp

namespace Window

variable {w v : Window} {now : Timestamp}

theorem following_later (w : Window) (k : Nat) :
    (w.following.later k).following = w.following.later (k + 1) := by
  have hspan := Timestamp.span_nonneg w.period
  have hnonneg : 0 ≤ (k : Int) * Timestamp.span w.period :=
    Int.mul_nonneg (Int.natCast_nonneg k) hspan
  have hnext : ((k + 1 : Nat) : Int) * Timestamp.span w.period =
      k * Timestamp.span w.period + Timestamp.span w.period := by
    rw [Int.natCast_add, Int.natCast_one, Int.add_mul, Int.one_mul]
  have hstart : Timestamp.saturate (w.following.stop.nanos + k * Timestamp.span w.period) =
      Timestamp.saturate (w.stop.nanos + ((k + 1 : Nat) : Int) * Timestamp.span w.period) := by
    refine (Timestamp.saturate_saturate_add ?_ hnonneg).trans ?_
    · exact Int.le_trans w.stop.min_le (by omega)
    · rw [hnext, Int.add_assoc, Int.add_comm (Timestamp.span w.period)]
  have hstop : (Timestamp.saturate (w.following.stop.nanos + k * Timestamp.span w.period)).add
        w.period =
      Timestamp.saturate
        (w.following.stop.nanos + ((k + 1 : Nat) : Int) * Timestamp.span w.period) := by
    refine (Timestamp.saturate_saturate_add ?_ hspan).trans ?_
    · exact Int.le_trans w.following.stop.min_le (by omega)
    · rw [hnext, Int.add_assoc]
  exact congrArg₂ (mk · · w.period w.delay) hstart hstop

theorem iterate_following (w : Window) (k : Nat) :
    following^[k] w.following = w.following.later k := by
  induction k with
  | zero => simp [later]
  | succ k ih => rw [Function.iterate_succ_apply', ih, following_later]

/-! ### Skipping -/

/-- Skipping the windows that are due ends in a window. -/
inductive SkipsTo (now : Timestamp) : Window → Window → Prop
  | stop {w : Window} (h : now < w.deadline) : SkipsTo now w w
  | skip {w v : Window} (h : w.deadline ≤ now) (rest : SkipsTo now w.following v) :
      SkipsTo now w v

/-- The number of windows that are skipped. -/
theorem SkipsTo.exists_isLeast (h : SkipsTo now w v) :
    ∃ k, IsLeast {k | now < (following^[k] w).deadline} k ∧ following^[k] w = v := by
  induction h with
  | stop h => exact ⟨0, ⟨h, fun j _ => Nat.zero_le j⟩, rfl⟩
  | skip hdue _ ih =>
      obtain ⟨k, ⟨hk, hleast⟩, hv⟩ := ih
      refine ⟨k + 1, ⟨hk, fun j hj => ?_⟩, hv⟩
      cases j with
      | zero => exact absurd hj (Int.not_lt.2 hdue)
      | succ j => exact Nat.succ_le_succ (hleast hj)

theorem skipsTo_of_isLeast {k : Nat} (h : IsLeast {k | now < (following^[k] w).deadline} k) :
    SkipsTo now w (following^[k] w) := by
  induction k generalizing w with
  | zero => exact .stop h.1
  | succ k ih =>
      have hdue : w.deadline ≤ now := by
        refine Int.not_lt.1 fun hlt => ?_
        have hzero : k + 1 ≤ 0 := h.2 hlt
        omega
      refine .skip hdue (ih ⟨h.1, fun j hj => ?_⟩)
      have hle : k + 1 ≤ j + 1 := h.2 hj
      omega

theorem skipsTo_iff :
    SkipsTo now w v ↔
      ∃ k, IsLeast {k | now < (following^[k] w).deadline} k ∧ following^[k] w = v := by
  refine ⟨SkipsTo.exists_isLeast, ?_⟩
  rintro ⟨k, hk, rfl⟩
  exact skipsTo_of_isLeast hk

/-! ### The window that a division finds -/

/-- The division counts the windows that are skipped. -/
theorem isLeast_periodsPast (hperiod : 0 < w.period.nanos) (hnow : now.nanos < Timestamp.maxNanos) :
    IsLeast {k | now < (w.later k).deadline} (w.periodsPast now) := by
  refine ⟨lt_deadline_later hperiod hnow, fun k hk => Nat.le_of_not_lt fun hlt => ?_⟩
  have hspan := Timestamp.span_pos hperiod
  have hnonneg : 0 ≤ (k : Int) * Timestamp.span w.period :=
    Int.mul_nonneg (Int.natCast_nonneg k) (Int.le_of_lt hspan)
  have hcount : (k : Int) ≤
      (now.nanos - Timestamp.span w.delay - w.stop.nanos) / Timestamp.span w.period := by
    unfold periodsPast at hlt
    omega
  have hpast := Int.mul_le_of_le_ediv hspan hcount
  -- So the window ends in time, and neither its end nor its deadline is cut off.
  have hstop := w.stop.min_le
  have hdelay := Timestamp.span_nonneg w.delay
  have hlo := now.min_le
  have hdeadline : now.nanos < (Timestamp.saturate ((Timestamp.saturate
      (w.stop.nanos + k * Timestamp.span w.period)).nanos + Timestamp.span w.delay)).nanos := hk
  rw [Timestamp.nanos_saturate, Timestamp.nanos_saturate] at hdeadline
  omega

theorem next?_eq_some_iff_skipsTo (hperiod : 0 < w.period.nanos) :
    w.next? now = some v ↔ SkipsTo now w.following v := by
  rw [next?_eq_some_iff, skipsTo_iff]
  simp only [iterate_following]
  constructor
  · rintro ⟨hnow, rfl⟩
    exact ⟨_, isLeast_periodsPast hperiod hnow, rfl⟩
  · rintro ⟨k, hk, rfl⟩
    have hnow : now.nanos < Timestamp.maxNanos := Int.lt_of_lt_of_le hk.1 (Timestamp.le_max _)
    rw [hk.unique (isLeast_periodsPast hperiod hnow)]
    exact ⟨hnow, rfl⟩

end Window

namespace Running

variable {α : Type} [Aggregating α]

theorem map_window_push? (a : Running α) (now : Timestamp) :
    ((a.push? now).map fun r => r.1.window) = a.window.next? now := by
  unfold push?
  cases a.window.next? now <;> rfl

/-- A push ends where skipping ends, at any time but the last timestamp, and
after it the aggregator is not due. At the last timestamp all windows are due. -/
theorem push_ends_iff (a : Running α) (now : Timestamp) (hperiod : 0 < a.window.period.nanos) :
    (∀ v, (a.push? now).map (fun r => r.1.window) = some v ↔
      Window.SkipsTo now a.window.following v) ∧
    ((∃ b out, a.push? now = some (b, out)) ↔ now.nanos < Timestamp.maxNanos) ∧
    (∀ b out, a.push? now = some (b, out) → now < b.deadline) ∧
    (now.nanos = Timestamp.maxNanos →
      ∀ k, (Window.following^[k] a.window.following).deadline ≤ now) := by
  have hnext := a.map_window_push? now
  refine ⟨fun v => ?_, ⟨?_, fun hnow => ?_⟩, ?_, ?_⟩
  · rw [hnext]
    exact Window.next?_eq_some_iff_skipsTo hperiod
  · rintro ⟨b, out, hpush⟩
    rw [hpush] at hnext
    exact (Window.next?_eq_some_iff.1 hnext.symm).1
  · rw [Window.next?_eq_some_iff.2 ⟨hnow, rfl⟩, Option.map_eq_some_iff] at hnext
    obtain ⟨⟨b, out⟩, hpush, -⟩ := hnext
    exact ⟨b, out, hpush⟩
  · intro b out hpush
    rw [hpush] at hnext
    exact Window.lt_deadline_of_next? hnext.symm hperiod
  · intro hnow k
    exact Int.le_trans (Timestamp.le_max _) (Int.le_of_eq hnow.symm)

theorem push_ends_iff_late :
    let a := AggregatorStage.merging
    0 < a.window.period.nanos ∧
      Window.SkipsTo (.ofSeconds 200) a.window.following
        ⟨.ofSeconds 180, .ofSeconds 210, .ofSeconds 30, .zero⟩ ∧
      ∃ b out, a.push? (.ofSeconds 200) = some (b, out) ∧ Timestamp.ofSeconds 200 < b.deadline := by
  intro a
  have hperiod : 0 < a.window.period.nanos := by decide +kernel
  obtain ⟨hskips, hends, hafter, -⟩ := push_ends_iff a (.ofSeconds 200) hperiod
  obtain ⟨b, out, hpush⟩ := hends.2 (by decide +kernel)
  refine ⟨hperiod, (hskips _).1 ?_, b, out, hpush, hafter b out hpush⟩
  rw [a.map_window_push?]
  decide +kernel

/-- A push at the last timestamp does not end. -/
theorem push_without_end :
    ¬ ∀ (a : Running Aggregator) (now : Timestamp), 0 < a.window.period.nanos →
      ∃ b out, a.push? now = some (b, out) ∧ now < b.deadline := by
  intro h
  obtain ⟨b, out, hpush, -⟩ := h AggregatorStage.merging (.saturate Timestamp.maxNanos)
    (by decide +kernel)
  have hnone : (AggregatorStage.merging.push? (.saturate Timestamp.maxNanos)).isNone := by
    decide +kernel
  rw [hpush] at hnone
  exact Bool.false_ne_true hnone

end Running

end MetricAgent
