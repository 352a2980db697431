import MetricAgent.Aggregator.Stage
import MetricAgent.Proofs.Aggregator.Window

/-!
# Each aggregator by itself

The aggregators of a stage do not influence one another: what the stage makes
of one of them is what that one makes of the history by itself
(`AggregatorStage.fst_run`). So a law about all aggregators of all stages is a
law about `Running.follow`, and is shown by what one event does to one
aggregator.
-/

namespace MetricAgent

namespace Running

variable {α : Type} [Aggregating α]

def handle (a : Running α) (now : Timestamp) : StageEvent → Running α
  | .metric m => (a.add m).1
  | .timer => if AggregatorStage.isDue now a then (AggregatorStage.push now a).1 else a
  | .stop => (AggregatorStage.push now a).1

def follow (a : Running α) (history : List (Timestamp × StageEvent)) : Running α :=
  history.foldl (fun a e => a.handle e.1 e.2) a

@[simp] theorem follow_nil (a : Running α) : a.follow [] = a := rfl

@[simp] theorem follow_cons (a : Running α) (now : Timestamp) (e : StageEvent)
    (history : List (Timestamp × StageEvent)) :
    a.follow ((now, e) :: history) = (a.handle now e).follow history := rfl

end Running

namespace AggregatorStage

variable {α : Type} [Aggregating α]

theorem fst_offerAll (m : Metric) (stage : List (Running α)) :
    (offerAll m stage).1 = stage.map fun a => (a.add m).1 := by
  induction stage with
  | nil => rfl
  | cons a rest ih => simp only [offerAll, List.map_cons, ih]

theorem fst_pushWhere (now : Timestamp) (test : Running α → Bool) (stage : List (Running α)) :
    (pushWhere now test stage).1 = stage.map fun a => if test a then (push now a).1 else a := by
  induction stage with
  | nil => rfl
  | cons a rest ih =>
      simp only [pushWhere, List.map_cons, ih]
      split <;> rfl

theorem fst_step (stage : List (Running α)) (now : Timestamp) (e : StageEvent) :
    (step stage now e).1 = stage.map fun a => a.handle now e := by
  cases e with
  | metric m => exact fst_offerAll m stage
  | timer => exact fst_pushWhere now (isDue now) stage
  | stop =>
      simp only [step, fst_pushWhere]
      rfl

theorem fst_run (stage : List (Running α)) (history : List (Timestamp × StageEvent)) :
    (run stage history).1 = stage.map fun a => a.follow history := by
  induction history generalizing stage with
  | nil => simp
  | cons event history ih =>
      obtain ⟨now, e⟩ := event
      have hstep : (run stage ((now, e) :: history)).1 = (run (step stage now e).1 history).1 := rfl
      rw [hstep, ih, fst_step, List.map_map]
      rfl

end AggregatorStage

namespace Running

variable {α : Type} [Aggregating α]

/-! ### What moves the window -/

@[simp] theorem window_add (a : Running α) (m : Metric) : (a.add m).1.window = a.window := by
  unfold add
  split <;> rfl

theorem window_push (a : Running α) (now : Timestamp) :
    (AggregatorStage.push now a).1.window = (a.window.next? now).getD a.window := by
  unfold AggregatorStage.push push?
  cases a.window.next? now <;> rfl

theorem period_push (a : Running α) (now : Timestamp) :
    (AggregatorStage.push now a).1.window.period = a.window.period := by
  rw [window_push]
  cases h : a.window.next? now with
  | none => rfl
  | some w => exact Window.period_of_next? h

theorem deadline_le_push (a : Running α) (now : Timestamp) :
    a.deadline ≤ (AggregatorStage.push now a).1.deadline := by
  unfold deadline
  rw [window_push]
  cases h : a.window.next? now with
  | none => exact Int.le_refl _
  | some w => exact Window.deadline_le_of_next? h

/-- After a push the aggregator is not due. -/
theorem lt_deadline_push {a : Running α} {now : Timestamp} (hperiod : 0 < a.window.period.nanos)
    (hnow : now.nanos < Timestamp.maxNanos) : now < (AggregatorStage.push now a).1.deadline := by
  obtain ⟨w, hnext⟩ : ∃ w, a.window.next? now = some w :=
    ⟨_, Window.next?_eq_some_iff.2 ⟨hnow, rfl⟩⟩
  unfold deadline
  rw [window_push, hnext]
  exact Window.lt_deadline_of_next? hnext hperiod

/-! ### What one event does to the window -/

theorem period_handle (a : Running α) (now : Timestamp) (e : StageEvent) :
    (a.handle now e).window.period = a.window.period := by
  cases e with
  | metric m => exact congrArg Window.period (a.window_add m)
  | timer =>
      simp only [handle]
      split
      · exact a.period_push now
      · rfl
  | stop => exact a.period_push now

theorem deadline_le_handle (a : Running α) (now : Timestamp) (e : StageEvent) :
    a.deadline ≤ (a.handle now e).deadline := by
  cases e with
  | metric m =>
      have hsame : (a.handle now (.metric m)).deadline = a.deadline :=
        congrArg Window.deadline (a.window_add m)
      rw [hsame]
      exact Int.le_refl _
  | timer =>
      simp only [handle]
      split
      · exact a.deadline_le_push now
      · exact Int.le_refl _
  | stop => exact a.deadline_le_push now

/-- After a wake-up the aggregator is not due, whether it was or not. -/
theorem lt_deadline_timer {a : Running α} {now : Timestamp} (hperiod : 0 < a.window.period.nanos)
    (hnow : now.nanos < Timestamp.maxNanos) : now < (a.handle now .timer).deadline := by
  simp only [handle]
  split
  · exact lt_deadline_push hperiod hnow
  · next hdue =>
    have hnot : ¬ a.deadline ≤ now := by
      simpa only [AggregatorStage.isDue, decide_eq_true_eq] using hdue
    exact Int.not_le.1 hnot

/-! ### What a history does to the window -/

theorem deadline_le_follow (a : Running α) (history : List (Timestamp × StageEvent)) :
    a.deadline ≤ (a.follow history).deadline := by
  induction history generalizing a with
  | nil => exact Int.le_refl _
  | cons event history ih =>
      obtain ⟨now, e⟩ := event
      exact Int.le_trans (a.deadline_le_handle now e) (ih (a.handle now e))

/-- A wake-up puts the deadline past its time for good. -/
theorem lt_deadline_follow {a : Running α} {history : List (Timestamp × StageEvent)}
    {t : Timestamp} (hperiod : 0 < a.window.period.nanos) (ht : t.nanos < Timestamp.maxNanos)
    (hmem : (t, StageEvent.timer) ∈ history) : t < (a.follow history).deadline := by
  induction history generalizing a with
  | nil => cases hmem
  | cons event history ih =>
      obtain ⟨now, e⟩ := event
      rcases List.mem_cons.1 hmem with heq | hmem
      · cases heq
        exact Int.lt_of_lt_of_le (lt_deadline_timer hperiod ht) (deadline_le_follow _ history)
      · exact ih ((a.period_handle now e).symm ▸ hperiod) hmem

end Running

end MetricAgent
