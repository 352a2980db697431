import MetricAgent.Proofs.Aggregator.Merging
import MetricAgent.Proofs.Aggregator.Skipping

/-!
# Windows by number

The windows of an aggregator are numbered from its first one on, which is number
zero. Each is one period after the one before (`Window.start_iterate_make`), so
its number says where it is, until timestamps end. Only pushes change the number
of the current window, and `Running.passed` counts by how much: a push moves on
to the first of the later windows that is not due.
-/

namespace MetricAgent

namespace Timestamp

theorem span_eq {d : Duration} (h : d.nanos ≤ maxNanos) : span d = d.nanos := Int.min_eq_left h

end Timestamp

namespace Window

variable {w : Window} {now : Timestamp}

/-- How many windows a push moves on by. -/
def advance (w : Window) (now : Timestamp) : Nat :=
  if now.nanos < Timestamp.maxNanos then w.following.periodsPast now + 1 else 0

theorem getD_next? (w : Window) (now : Timestamp) :
    (w.next? now).getD w = following^[w.advance now] w := by
  unfold advance
  split
  · next hnow =>
    rw [next?_eq_some_iff.2 ⟨hnow, rfl⟩, Option.getD_some, Function.iterate_succ_apply,
      iterate_following]
  · next hnow =>
    rw [next?_eq_none hnow, Option.getD_none]
    rfl

/-- A push moves on by one window at least, and then to the first that is not due. -/
theorem isLeast_advance (hperiod : 0 < w.period.nanos) (hnow : now.nanos < Timestamp.maxNanos) :
    IsLeast {j | 0 < j ∧ now < (following^[j] w).deadline} (w.advance now) := by
  rw [advance, if_pos hnow]
  obtain ⟨hafter, hleast⟩ := isLeast_periodsPast (w := w.following) hperiod hnow
  refine ⟨⟨Nat.succ_pos _, ?_⟩, ?_⟩
  · rw [Function.iterate_succ_apply, iterate_following]
    exact hafter
  · rintro (_ | j) ⟨hpos, hj⟩
    · exact absurd hpos (Nat.lt_irrefl 0)
    · rw [Function.iterate_succ_apply, iterate_following] at hj
      exact Nat.succ_le_succ (hleast hj)

theorem advance_of_lt_deadline (hperiod : 0 < w.period.nanos)
    (hnow : now.nanos < Timestamp.maxNanos) (hearly : now < w.deadline) : w.advance now = 1 := by
  obtain ⟨⟨hpos, -⟩, hleast⟩ := isLeast_advance hperiod hnow
  have hone : w.advance now ≤ 1 :=
    hleast ⟨Nat.one_pos, Int.lt_of_lt_of_le hearly (deadline_le_following w)⟩
  omega

/-! ### Where a window is -/

theorem period_iterate (w : Window) (n : Nat) : (following^[n] w).period = w.period := by
  induction n with
  | zero => rfl
  | succ n ih =>
      rw [Function.iterate_succ_apply']
      exact ih

theorem delay_iterate (w : Window) (n : Nat) : (following^[n] w).delay = w.delay := by
  induction n with
  | zero => rfl
  | succ n ih =>
      rw [Function.iterate_succ_apply']
      exact ih

theorem stop_iterate_make (start : Timestamp) (period delay : Duration) (n : Nat) :
    (following^[n] (make start period delay)).stop =
      .saturate (start.nanos + (n + 1) * Timestamp.span period) := by
  have hspan := Timestamp.span_nonneg period
  induction n with
  | zero => simp [make, Timestamp.add]
  | succ n ih =>
      have hnonneg : 0 ≤ ((n : Int) + 1) * Timestamp.span period :=
        Int.mul_nonneg (by omega) hspan
      have hlo := start.min_le
      have hfirst : Timestamp.minNanos ≤ start.nanos + (n + 1) * Timestamp.span period := by
        unfold Timestamp.minNanos
        omega
      rw [Function.iterate_succ_apply']
      change (following^[n] (make start period delay)).stop.add
        (following^[n] (make start period delay)).period = _
      rw [ih, period_iterate]
      refine (Timestamp.saturate_saturate_add hfirst hspan).trans ?_
      rw [Int.natCast_add, Int.natCast_one, Int.add_mul (n + 1), Int.one_mul, Int.add_assoc]

theorem start_iterate_make (start : Timestamp) (period delay : Duration) (n : Nat) :
    (following^[n] (make start period delay)).start =
      .saturate (start.nanos + n * Timestamp.span period) := by
  cases n with
  | zero => simp [make]
  | succ n =>
      rw [Function.iterate_succ_apply']
      exact (stop_iterate_make start period delay n).trans (by simp)

/-- Where nothing is cut off, a window lies where its number says. -/
theorem nanos_iterate_make {start : Timestamp} {period delay : Duration} {n : Nat}
    (hperiod : period.nanos ≤ Timestamp.maxNanos) (hdelay : delay.nanos ≤ Timestamp.maxNanos)
    (hroom : start.nanos + (n + 1) * period.nanos + delay.nanos ≤ Timestamp.maxNanos) :
    (following^[n] (make start period delay)).start.nanos = start.nanos + n * period.nanos ∧
      (following^[n] (make start period delay)).stop.nanos =
        start.nanos + (n + 1) * period.nanos ∧
      (following^[n] (make start period delay)).deadline.nanos =
        start.nanos + (n + 1) * period.nanos + delay.nanos := by
  have hlo := start.min_le
  have hnonneg : 0 ≤ (n : Int) * period.nanos :=
    Int.mul_nonneg (Int.natCast_nonneg n) (Int.natCast_nonneg _)
  have hnext : ((n : Int) + 1) * period.nanos = n * period.nanos + period.nanos := by
    rw [Int.add_mul, Int.one_mul]
  unfold Timestamp.maxNanos at hroom
  have hstop : (following^[n] (make start period delay)).stop.nanos =
      start.nanos + (n + 1) * period.nanos := by
    rw [stop_iterate_make, Timestamp.span_eq hperiod]
    exact Timestamp.nanos_saturate_of_mem (by omega) (by omega)
  refine ⟨?_, hstop, ?_⟩
  · rw [start_iterate_make, Timestamp.span_eq hperiod]
    exact Timestamp.nanos_saturate_of_mem (by omega) (by omega)
  · unfold deadline Timestamp.add
    rw [hstop, delay_iterate]
    change (Timestamp.saturate (_ + Timestamp.span delay)).nanos = _
    rw [Timestamp.span_eq hdelay]
    exact Timestamp.nanos_saturate_of_mem (by omega) (by omega)

end Window

namespace Running

variable {α : Type} [Aggregating α]

/-- How many windows an aggregator moves on by in a history of calls. -/
def passed (a : Running α) : List Call → Nat
  | [] => 0
  | .add m :: calls => (a.call (.add m)).passed calls
  | .push now :: calls => a.window.advance now + (a.call (.push now)).passed calls

theorem window_callAll (a : Running α) (calls : List Call) :
    (a.callAll calls).window = Window.following^[a.passed calls] a.window := by
  induction calls generalizing a with
  | nil => rfl
  | cons c calls ih =>
      refine (ih (a.call c)).trans ?_
      cases c with
      | add m => exact congrArg _ (a.window_add m)
      | push now =>
          have hwindow : (a.call (.push now)).window =
              Window.following^[a.window.advance now] a.window :=
            (a.window_push now).trans (a.window.getD_next? now)
          rw [passed, Nat.add_comm, Function.iterate_add_apply, hwindow]

theorem passed_append (a : Running α) (calls more : List Call) :
    a.passed (calls ++ more) = a.passed calls + (a.callAll calls).passed more := by
  induction calls generalizing a with
  | nil => exact (Nat.zero_add _).symm
  | cons c calls ih =>
      cases c with
      | add m => exact ih (a.call (.add m))
      | push now =>
          rw [List.cons_append, passed, passed, ih, Nat.add_assoc]
          rfl

theorem passed_map_add (a : Running α) (ms : List Metric) : a.passed (ms.map Call.add) = 0 := by
  induction ms generalizing a with
  | nil => rfl
  | cons m ms ih => exact ih (a.call (.add m))

/-- After any calls the current window is the one of some number, which is
counted from the first window on. It lies where its number says, as long as
nothing is cut off at the end of timestamps. Metrics that come in do not change
the number, and a push raises it by one if it is early, and by as much as it
takes to find a window that is not due. So it never falls. -/
theorem windows_numbered {s : AggregatorSettings} {aggregator : α} {start : Timestamp}
    {a : Running α} (hmake : make s aggregator start = .ok a) :
    let first := Window.make start s.period s.delay
    ∃ number : List Call → Nat, number [] = 0 ∧
      (∀ calls, (a.callAll calls).window = Window.following^[number calls] first) ∧
      (∀ calls, s.period.nanos ≤ Timestamp.maxNanos → s.delay.nanos ≤ Timestamp.maxNanos →
        start.nanos + (number calls + 1) * s.period.nanos + s.delay.nanos ≤ Timestamp.maxNanos →
        (a.callAll calls).window.start.nanos = start.nanos + number calls * s.period.nanos ∧
          (a.callAll calls).window.stop.nanos =
            start.nanos + (number calls + 1) * s.period.nanos ∧
          (a.callAll calls).deadline.nanos =
            start.nanos + (number calls + 1) * s.period.nanos + s.delay.nanos) ∧
      (∀ calls (ms : List Metric), number (calls ++ ms.map Call.add) = number calls) ∧
      (∀ calls now, now.nanos < Timestamp.maxNanos →
        ∃ j, number (calls ++ [.push now]) = number calls + j ∧
          IsLeast {j | 0 < j ∧ now < (Window.following^[number calls + j] first).deadline} j ∧
          (now < (a.callAll calls).deadline → j = 1)) ∧
      ∀ calls more, number calls ≤ number (calls ++ more) := by
  intro first
  have hfirst : a.window = first := by
    unfold make at hmake
    split at hmake
    · cases hmake
    · cases hmake
      rfl
  have hperiod : 0 < first.period.nanos := period_pos_of_make hmake
  have hwindow (calls : List Call) :
      (a.callAll calls).window = Window.following^[a.passed calls] first :=
    hfirst ▸ a.window_callAll calls
  refine ⟨a.passed, rfl, hwindow, fun calls hp hd hroom => ?_, fun calls ms => ?_,
    fun calls now hnow => ?_, fun calls more => ?_⟩
  · unfold deadline
    rw [hwindow]
    exact Window.nanos_iterate_make hp hd hroom
  · rw [passed_append, passed_map_add, Nat.add_zero]
  · have hcurrent : 0 < (a.callAll calls).window.period.nanos := by
      rw [hwindow, Window.period_iterate]
      exact hperiod
    refine ⟨(a.callAll calls).window.advance now, ?_, ?_, ?_⟩
    · rw [passed_append]
      rfl
    · have hleast := Window.isLeast_advance hcurrent hnow
      simp only [hwindow, ← Function.iterate_add_apply] at hleast ⊢
      simpa only [Nat.add_comm] using hleast
    · exact Window.advance_of_lt_deadline hcurrent hnow
  · rw [passed_append]
    exact Nat.le_add_right _ _

/-- An early push, one after a long silence, and one by a clock that was set back. -/
theorem windows_numbered_set_back :
    ∃ a, make patient (Aggregator.merge .empty) (.ofSeconds 60) = .ok a ∧
      ∃ number : List Call → Nat,
        let calls := [Call.add (AggregatorStage.reading 70), .push (.ofSeconds 75)]
        number calls = 1 ∧ number (calls ++ [.push (.ofSeconds 1000)]) = 29 ∧
          (a.callAll (calls ++ [.push (.ofSeconds 1000)])).window.start = .ofSeconds 930 ∧
          number (calls ++ [.push (.ofSeconds 1000), .push (.ofSeconds 500)]) = 30 := by
  refine ⟨_, rfl, ?_⟩
  have hmake : make patient (Aggregator.merge .empty) (.ofSeconds 60) = .ok _ := rfl
  obtain ⟨number, hzero, hwindow, -, hadd, hpush, -⟩ := windows_numbered hmake
  refine ⟨number, ?_⟩
  intro calls
  have hfirst : number [.add (AggregatorStage.reading 70)] = 0 :=
    (hadd [] [AggregatorStage.reading 70]).trans hzero
  have hearly : number calls = 1 := by
    obtain ⟨j, hnumber, -, hj⟩ := hpush [.add (AggregatorStage.reading 70)] (.ofSeconds 75)
      (by decide +kernel)
    exact hnumber.trans (congrArg₂ (· + ·) hfirst (hj (by decide +kernel)))
  have hlate : number (calls ++ [.push (.ofSeconds 1000)]) = 29 := by
    obtain ⟨j, hnumber, hleast, -⟩ := hpush calls (.ofSeconds 1000) (by decide +kernel)
    rw [hearly] at hnumber hleast
    have hdue : ∀ k < 28, ¬ Timestamp.ofSeconds 1000 < (Window.following^[1 + k]
        (.make (.ofSeconds 60) patient.period patient.delay)).deadline := by
      decide +kernel
    have hj : j = 28 := hleast.unique
      ⟨⟨by decide, by decide +kernel⟩, fun k hk => Nat.le_of_not_lt fun hlt => hdue k hlt hk.2⟩
    rw [hnumber, hj]
  refine ⟨hearly, hlate, ?_, ?_⟩
  · rw [hwindow, hlate]
    decide +kernel
  · obtain ⟨j, hnumber, -, hj⟩ := hpush (calls ++ [.push (.ofSeconds 1000)]) (.ofSeconds 500)
      (by decide +kernel)
    refine hnumber.trans (congrArg₂ (· + ·) hlate (hj ?_))
    unfold deadline
    rw [hwindow, hlate]
    decide +kernel

end Running

end MetricAgent
