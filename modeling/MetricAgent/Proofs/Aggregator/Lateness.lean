import MetricAgent.Pipeline.Basic
import MetricAgent.Proofs.Aggregator.Overdue
import MetricAgent.Proofs.Outcomes

/-!
# How late a metric may come

A stage that wakes before it takes a metric never finds an aggregator overdue,
so a metric is lost only if it is too old. How old it may be does not depend on
how long nobody was there to push: a window that a push moves to begins where
one ended that was due, so it begins no later than the delay before the push
(`Window.start_le_of_next?`). A metric is therefore aggregated if it is from
the last `delay` before now, or older by no more than the grace
(`Running.aggregated_unless_late`).

All that is asked of the first window is that it has begun. Pipelines are built
so, whether windows are aligned or not
(`Pipeline.make_of_buildAggregator`).
-/

namespace MetricAgent

namespace Timestamp

instance : Max Timestamp := maxOfLe

theorem nanos_max (s t : Timestamp) : (max s t).nanos = max s.nanos t.nanos := by
  change (if s.nanos ≤ t.nanos then t else s).nanos = max s.nanos t.nanos
  split
  · next h => rw [Int.max_eq_right h]
  · next h => rw [Int.max_eq_left (Int.le_of_lt (Int.not_le.1 h))]

theorem le_max_iff {s t u : Timestamp} : s ≤ max t u ↔ s ≤ t ∨ s ≤ u := by
  change s.nanos ≤ (max t u).nanos ↔ s.nanos ≤ t.nanos ∨ s.nanos ≤ u.nanos
  rw [nanos_max]
  omega

theorem sub_le_sub {s t : Timestamp} (h : s ≤ t) (d : Duration) : s.sub d ≤ t.sub d := by
  have hle : s.nanos ≤ t.nanos := h
  exact nanos_saturate_le (by omega)

theorem truncate_le {t : Timestamp} {d : Duration} (ht : 0 ≤ t.nanos) : t.truncate d ≤ t := by
  unfold truncate
  split
  · exact Int.le_refl _
  · next hspan =>
    have hfloor := Int.ediv_mul_le t.nanos (b := span d) (by omega)
    have hnonneg : 0 ≤ t.nanos / span d * span d :=
      Int.mul_nonneg (Int.ediv_nonneg ht (span_nonneg d)) (span_nonneg d)
    have hmax := t.le_max
    change (saturate _).nanos ≤ t.nanos
    rw [nanos_saturate]
    omega

theorem lt_truncate_add {t : Timestamp} {d : Duration} (hd : 0 < d.nanos) (ht : 0 ≤ t.nanos)
    (hmax : t.nanos < maxNanos) : t < (t.truncate d).add d := by
  have hspan := span_pos hd
  unfold maxNanos at hmax
  change t.nanos < (saturate ((t.truncate d).nanos + span d)).nanos
  rw [nanos_saturate]
  unfold truncate
  split
  · omega
  · have hfloor := Int.lt_ediv_add_one_mul_self t.nanos hspan
    have hle := Int.ediv_mul_le t.nanos (b := span d) (by omega)
    have hnonneg : 0 ≤ t.nanos / span d * span d :=
      Int.mul_nonneg (Int.ediv_nonneg ht (span_nonneg d)) (span_nonneg d)
    rw [Int.add_mul, Int.one_mul] at hfloor
    rw [nanos_saturate]
    omega

theorem lt_add {t : Timestamp} {d : Duration} (hd : 0 < d.nanos) (hmax : t.nanos < maxNanos) :
    t < t.add d := by
  have hspan := span_pos hd
  have hmin := t.min_le
  unfold maxNanos at hmax
  change t.nanos < (saturate (t.nanos + span d)).nanos
  rw [nanos_saturate]
  omega

theorem zero_le_ofDuration (d : Duration) : 0 ≤ (ofDuration d).nanos := by
  have hspan := span_nonneg d
  unfold ofDuration
  rw [nanos_saturate]
  omega

end Timestamp

namespace Window

variable {w v : Window} {now : Timestamp}

/-- A push that is due moves to a window that has begun by the delay before it,
as the window before that one was due as well. -/
theorem start_le_of_next? (h : w.next? now = some v) (hperiod : 0 < w.period.nanos)
    (hdue : w.deadline ≤ now) : v.start ≤ now.sub w.delay := by
  obtain ⟨hnow, rfl⟩ := next?_eq_some_iff.1 h
  have hspan := Timestamp.span_pos hperiod
  have hdelay := Timestamp.span_nonneg w.delay
  have hhi := now.le_max
  have hended : w.stop.nanos ≤ now.nanos - Timestamp.span w.delay := by
    have hle : (Timestamp.saturate (w.stop.nanos + Timestamp.span w.delay)).nanos ≤ now.nanos :=
      hdue
    have hlo := w.stop.min_le
    rw [Timestamp.nanos_saturate] at hle
    unfold Timestamp.maxNanos at hnow
    omega
  refine Timestamp.nanos_saturate_le ?_
  by_cases hpast : w.following.periodsPast now = 0
  · rw [hpast, Int.natCast_zero, Int.zero_mul, Int.add_zero]
    exact hended
  · -- The window before this one was due, so its end was not cut off.
    have hcut : w.following.stop.nanos =
        max (-0x8000000000000000) (min (w.stop.nanos + Timestamp.span w.period)
          0x7fffffffffffffff) := Timestamp.nanos_saturate _
    have hquot := Int.ediv_mul_le
      (now.nanos - Timestamp.span w.delay - w.following.stop.nanos) (b := Timestamp.span w.period)
      (by omega)
    have hcount : (w.following.periodsPast now : Int) =
        (now.nanos - Timestamp.span w.delay - w.following.stop.nanos) / Timestamp.span w.period +
          1 := by
      unfold periodsPast at hpast ⊢
      exact Int.toNat_of_nonneg (by simp only [following] at hpast ⊢; omega)
    have hwhole : 0 ≤ (now.nanos - Timestamp.span w.delay - w.following.stop.nanos) /
        Timestamp.span w.period * Timestamp.span w.period :=
      Int.mul_nonneg (by omega) (Int.le_of_lt hspan)
    have hlo := w.stop.min_le
    unfold Timestamp.maxNanos at hnow
    rw [hcount]
    change w.stop.nanos + _ * Timestamp.span w.period ≤ _
    rw [Int.add_mul, Int.one_mul]
    omega

theorem delay_of_next? (h : w.next? now = some v) : v.delay = w.delay := by
  obtain ⟨-, rfl⟩ := next?_eq_some_iff.1 h
  rfl

end Window

namespace Running

variable {α : Type} {s : AggregatorSettings} {t₀ now : Timestamp} {a : Running α}

/-- What holds at a time of an aggregator that had begun at `t₀` and that is
only pushed when it is due. -/
structure Timely (s : AggregatorSettings) (t₀ now : Timestamp) (a : Running α) : Prop where
  period_pos : 0 < a.window.period.nanos
  delay : a.window.delay = s.delay
  grace : a.grace = s.grace
  filter : a.filter = s.filter
  start_le : a.window.start ≤ max t₀ (now.sub s.delay)

theorem period_pos_of_make {aggregator : α} {first : Timestamp}
    (h : make s aggregator first = .ok a) : 0 < s.period.nanos := by
  unfold make at h
  split at h
  · cases h
  · next hperiod => exact Duration.isZero_eq_false_iff.1 (Bool.eq_false_iff.2 hperiod)

theorem timely_make {aggregator : α} {first : Timestamp} (h : make s aggregator first = .ok a)
    (hfirst : first ≤ t₀) : a.Timely s t₀ now := by
  have hperiod := period_pos_of_make h
  unfold make at h
  split at h
  · cases h
  · cases h
    exact ⟨hperiod, rfl, rfl, rfl, Timestamp.le_max_iff.2 (.inl hfirst)⟩

theorem Timely.mono {t : Timestamp} (h : a.Timely s t₀ t) (hle : t ≤ now) : a.Timely s t₀ now where
  period_pos := h.period_pos
  delay := h.delay
  grace := h.grace
  filter := h.filter
  start_le := by
    rcases Timestamp.le_max_iff.1 h.start_le with hstart | hstart
    · exact Timestamp.le_max_iff.2 (.inl hstart)
    · refine Timestamp.le_max_iff.2 (.inr ?_)
      exact Int.le_trans hstart (Timestamp.sub_le_sub hle s.delay)

variable [Aggregating α]

theorem grace_push (a : Running α) (now : Timestamp) :
    (AggregatorStage.push now a).1.grace = a.grace := by
  unfold AggregatorStage.push push?
  cases a.window.next? now <;> rfl

theorem filter_push (a : Running α) (now : Timestamp) :
    (AggregatorStage.push now a).1.filter = a.filter := by
  unfold AggregatorStage.push push?
  cases a.window.next? now <;> rfl

theorem grace_add (a : Running α) (m : Metric) : (a.add m).1.grace = a.grace := by
  unfold add
  split <;> rfl

theorem filter_add (a : Running α) (m : Metric) : (a.add m).1.filter = a.filter := by
  unfold add
  split <;> rfl

theorem Timely.add (h : a.Timely s t₀ now) (m : Metric) : (a.add m).1.Timely s t₀ now := by
  have hwindow := a.window_add m
  exact ⟨hwindow ▸ h.period_pos, hwindow ▸ h.delay, (a.grace_add m).trans h.grace,
    (a.filter_add m).trans h.filter, hwindow ▸ h.start_le⟩

theorem Timely.push (h : a.Timely s t₀ now) (hdue : a.deadline ≤ now) :
    (AggregatorStage.push now a).1.Timely s t₀ now := by
  have hwindow := a.window_push now
  cases hnext : a.window.next? now with
  | none =>
      rw [hnext, Option.getD_none] at hwindow
      exact ⟨hwindow ▸ h.period_pos, hwindow ▸ h.delay, (a.grace_push now).trans h.grace,
        (a.filter_push now).trans h.filter, hwindow ▸ h.start_le⟩
  | some v =>
      rw [hnext, Option.getD_some] at hwindow
      have hstart := Window.start_le_of_next? hnext h.period_pos hdue
      rw [h.delay] at hstart
      refine ⟨?_, ?_, (a.grace_push now).trans h.grace, (a.filter_push now).trans h.filter, ?_⟩
      · rw [hwindow, Window.period_of_next? hnext]
        exact h.period_pos
      · rw [hwindow, Window.delay_of_next? hnext]
        exact h.delay
      · rw [hwindow]
        exact Timestamp.le_max_iff.2 (.inr hstart)

theorem Timely.handle (h : a.Timely s t₀ now) {e : StageEvent} (he : e ≠ .stop) :
    (a.handle now e).Timely s t₀ now := by
  cases e with
  | metric m => exact h.add m
  | timer =>
      simp only [Running.handle]
      split
      · next hdue => exact h.push (by simpa only [AggregatorStage.isDue, decide_eq_true_eq] using hdue)
      · exact h
  | stop => exact absurd rfl he

/-- Whatever is handled until a time, as long as nothing is pushed before it is
due. -/
theorem Timely.follow {t : Timestamp} {history : List (Timestamp × StageEvent)}
    (h : a.Timely s t₀ t) (hopen : ∀ e ∈ history, e.2 ≠ .stop)
    (hclock : (t :: history.map Prod.fst ++ [now]).Pairwise (· ≤ ·)) :
    (a.follow history).Timely s t₀ now := by
  induction history generalizing a t with
  | nil => exact h.mono (by simpa using hclock)
  | cons event history ih =>
      obtain ⟨t', e⟩ := event
      rw [List.map_cons, List.cons_append, List.pairwise_cons] at hclock
      -- The bound on the start grows with the clock before the event is handled.
      have hle : t ≤ t' := hclock.1 t' (by simp)
      have hnext := (h.mono hle).handle (hopen _ List.mem_cons_self)
      exact ih hnext (fun e he => hopen e (List.mem_cons_of_mem _ he)) hclock.2

/-- A metric that comes right after a wake-up. -/
theorem aggregated_unless_late {first : Timestamp} {aggregator : α}
    (hmake : make s aggregator first = .ok a) (hfirst : first ≤ t₀)
    (before : List (Timestamp × StageEvent)) (hopen : ∀ e ∈ before, e.2 ≠ .stop)
    (hclock : (t₀ :: before.map Prod.fst ++ [now]).Pairwise (· ≤ ·))
    (hnow : now.nanos < Timestamp.maxNanos) :
    let b := (a.follow before).handle now .timer
    let oldest := max t₀ (now.sub s.delay)
    b.window.start ≤ oldest ∧ now < b.deadline ∧
      ∀ m : Metric, s.filter.select m = true → (s.filter.modify m).fields ≠ [] →
        oldest.sub s.grace ≤ m.timestamp → m.timestamp ≤ now →
        (b.add m).1.aggregator = Aggregating.observe b.aggregator (s.filter.modify m) ∧
          (b.add m).1.stats = { b.stats with aggregated := b.stats.aggregated + 1 } := by
  intro b oldest
  have hbefore := (timely_make hmake hfirst).follow hopen hclock
  have hb : b.Timely s t₀ now := hbefore.handle nofun
  have hdeadline : now < b.deadline := lt_deadline_timer hbefore.period_pos hnow
  refine ⟨hb.start_le, hdeadline, fun m hselect hfields hfrom huntil => ?_⟩
  rw [← hb.filter] at hselect hfields ⊢
  have hcovers : b.covers m.timestamp = true := by
    refine covers_iff.2 ⟨?_, Int.le_trans huntil (Int.le_of_lt hdeadline)⟩
    rw [hb.grace]
    exact Int.le_trans (Timestamp.sub_le_sub hb.start_le s.grace) hfrom
  have hoffer := offer_of_selected hselect hfields
  rw [hcovers, if_pos rfl] at hoffer
  exact add_of_aggregated hoffer

/-- Windows of half a minute that are due a minute after their end. -/
def patient : AggregatorSettings where
  name := "merge"
  id := none
  period := .ofSeconds 30
  delay := .ofSeconds 60
  grace := .ofSeconds 5
  withholds := false
  rename := .none
  tags := []
  filter := .empty

theorem aggregated_unless_late_skipped :
    ∃ a : Running Aggregator, make patient (.merge .empty) (.ofSeconds 60) = .ok a ∧
      let b := (a.follow [(.ofSeconds 75, .metric (AggregatorStage.reading 70)),
        (.ofSeconds 400, .timer)]).handle (.ofSeconds 1000) .timer
      b.window.start = .ofSeconds 930 ∧
        (b.add (AggregatorStage.reading 935)).1.stats = ⟨2, 0, 0, 1⟩ := by
  refine ⟨_, rfl, ?_⟩
  intro b
  have hmake : make patient (Aggregator.merge .empty) (.ofSeconds 60) = .ok _ := rfl
  have hfirst : Timestamp.ofSeconds 60 ≤ .ofSeconds 70 := by decide +kernel
  have hnow : (Timestamp.ofSeconds 1000).nanos < Timestamp.maxNanos := by decide +kernel
  obtain ⟨-, -, hall⟩ := aggregated_unless_late hmake hfirst
    [(.ofSeconds 75, .metric (AggregatorStage.reading 70)), (.ofSeconds 400, .timer)] (by simp)
    (by decide +kernel) hnow
  have hmet := hall (AggregatorStage.reading 935) rfl (by decide) (by decide +kernel)
    (by decide +kernel)
  refine ⟨by decide +kernel, hmet.2.trans ?_⟩
  decide +kernel

end Running

namespace Pipeline

/-- An aggregator of a pipeline begins with the window that holds the time at
which the pipeline is built. -/
theorem make_of_buildAggregator {c : Config} {r : Registry} {now : Duration}
    {settings : AggregatorConfig} {a : Running Aggregator}
    (h : buildAggregator c r now settings = .ok a) :
    ∃ (s : AggregatorSettings) (aggregator : Aggregator) (first : Timestamp),
      Running.make s aggregator first = .ok a ∧ first ≤ .ofDuration now ∧
        ((Timestamp.ofDuration now).nanos < Timestamp.maxNanos →
          Timestamp.ofDuration now < first.add s.period) := by
  unfold buildAggregator at h
  obtain ⟨aggregator, -, h⟩ := bind_eq_ok.1 h
  obtain ⟨filter, -, h⟩ := bind_eq_ok.1 h
  have hmade := mapError_eq_ok.1 h
  have hnonneg := Timestamp.zero_le_ofDuration now
  have hperiod := Running.period_pos_of_make hmade
  refine ⟨_, aggregator, _, hmade, ?_, fun hmax => ?_⟩
  · split
    · exact Timestamp.truncate_le hnonneg
    · exact Int.le_refl _
  · split
    · exact Timestamp.lt_truncate_add hperiod hnonneg hmax
    · exact Timestamp.lt_add hperiod hmax

end Pipeline

end MetricAgent
