import MetricAgent.Proofs.Aggregator.Single

/-!
# Metrics that come while a push is overdue

A stage that was kept busy may find a metric and a due aggregator at the same
time, and take the metric first. The window has not moved on then, and a metric
with a timestamp past its deadline lies outside of it, although it is not from
the future. So it is dropped. This is the only way to lose a metric that is
neither too old nor from the future: `aggregated_unless_overdue`.
-/

namespace MetricAgent

namespace Filter

@[simp] theorem timestamp_renameTag (m : Metric) (change : String × String) :
    (renameTag m change).timestamp = m.timestamp := by
  unfold renameTag
  split <;> rfl

@[simp] theorem timestamp_modify (f : Filter) (m : Metric) :
    (f.modify m).timestamp = m.timestamp := by
  have hfold : ∀ (changes : List (String × String)) (n : Metric),
      (changes.foldl renameTag n).timestamp = n.timestamp := by
    intro changes
    induction changes with
    | nil => exact fun n => rfl
    | cons change rest ih =>
        intro n
        rw [List.foldl_cons, ih, timestamp_renameTag]
  exact hfold f.tagRename (f.trim m)

end Filter

namespace Running

variable {α : Type} {a : Running α} {m : Metric}

theorem covers_iff {t : Timestamp} :
    a.covers t = true ↔ a.window.start.sub a.grace ≤ t ∧ t ≤ a.deadline := by
  simp [covers]

theorem offer_of_selected (hselect : a.filter.select m = true)
    (hfields : (a.filter.modify m).fields ≠ []) :
    a.offer m = if a.covers m.timestamp then .aggregated (a.filter.modify m) else .dropped := by
  have hsome : (a.filter.modify m).fields.isEmpty = false := by simpa using hfields
  simp only [offer, hselect, hsome, Filter.timestamp_modify]
  cases a.covers m.timestamp <;> rfl

variable [Aggregating α]

theorem add_of_aggregated {n : Metric} (h : a.offer m = .aggregated n) :
    (a.add m).1.aggregator = Aggregating.observe a.aggregator n ∧
      (a.add m).1.stats = { a.stats with aggregated := a.stats.aggregated + 1 } := by
  simp [add, h]

theorem add_of_dropped (h : a.offer m = .dropped) :
    (a.add m).1.aggregator = a.aggregator ∧
      (a.add m).1.stats = { a.stats with dropped := a.stats.dropped + 1 } := by
  simp [add, h]

end Running

namespace AggregatorStage

variable {α : Type} [Aggregating α]

/-- An aggregator of a stage has come from one of the stage before the history,
which went through the history by itself. -/
theorem exists_follow {stage : List (Running α)} {history : List (Timestamp × StageEvent)} {k : Nat}
    {a : Running α} (h : (run stage history).1[k]? = some a) :
    ∃ first ∈ stage, first.follow history = a := by
  rw [fst_run, List.getElem?_map, Option.map_eq_some_iff] at h
  obtain ⟨first, hfirst, rfl⟩ := h
  exact ⟨first, List.mem_of_getElem? hfirst, rfl⟩

/-- After any history, a metric comes in that an aggregator selects and leaves
with fields, and that is neither older than the window and its grace nor from
the future. Up to the deadline of the aggregator it is aggregated, and past it
the aggregator is overdue and drops it, which is counted once either way. When
the timer has woken the stage at the time of the metric or later, the deadline
lies past it. -/
theorem aggregated_unless_overdue (stage : List (Running α))
    (hperiod : ∀ a ∈ stage, 0 < a.window.period.nanos) (before : List (Timestamp × StageEvent))
    (now : Timestamp) (m : Metric) (k : Nat) (a : Running α)
    (ha : (run stage before).1[k]? = some a) (hselect : a.filter.select m = true)
    (hfields : (a.filter.modify m).fields ≠ [])
    (hfrom : a.window.start.sub a.grace ≤ m.timestamp) (huntil : m.timestamp ≤ now) :
    ∃ b, (step (run stage before).1 now (.metric m)).1[k]? = some b ∧
      (m.timestamp ≤ a.deadline →
        b.aggregator = Aggregating.observe a.aggregator (a.filter.modify m) ∧
          b.stats = { a.stats with aggregated := a.stats.aggregated + 1 }) ∧
      (a.deadline < m.timestamp → isDue now a = true ∧ b.aggregator = a.aggregator ∧
        b.stats = { a.stats with dropped := a.stats.dropped + 1 }) ∧
      ∀ t, (t, StageEvent.timer) ∈ before → m.timestamp ≤ t → t.nanos < Timestamp.maxNanos →
        m.timestamp ≤ a.deadline := by
  have hoffer := Running.offer_of_selected hselect hfields
  refine ⟨(a.add m).1, ?_, ?_, ?_, ?_⟩
  · rw [fst_step, List.getElem?_map, ha]
    rfl
  · intro hdeadline
    rw [Running.covers_iff.2 ⟨hfrom, hdeadline⟩, if_pos rfl] at hoffer
    exact Running.add_of_aggregated hoffer
  · intro hdeadline
    have hnot : ¬ a.covers m.timestamp = true := by
      rw [Running.covers_iff, not_and]
      exact fun _ => Int.not_le.2 hdeadline
    rw [if_neg hnot] at hoffer
    have hdue : a.deadline ≤ now := Int.le_trans (Int.le_of_lt hdeadline) huntil
    exact ⟨by simpa [isDue] using hdue, Running.add_of_dropped hoffer⟩
  · intro t hmem ht hmax
    obtain ⟨first, hfirst, rfl⟩ := exists_follow ha
    have hlt := Running.lt_deadline_follow (hperiod first hfirst) hmax hmem
    exact Int.le_trans ht (Int.le_of_lt hlt)

/-- An aggregator whose first window lasts from the first minute to half past. -/
def merging : Running Aggregator where
  name := "merge"
  aggregator := .merge .empty
  window := .make (.ofSeconds 60) (.ofSeconds 30) .zero
  grace := .zero
  withholds := false
  rename := .none
  tags := []
  filter := .empty
  stats := ⟨0, 0, 0, 0⟩
  telemetry := .make "aggregator" "merge" none

def reading (s : Int) : Metric := ⟨"up", [], [("value", .int 1)], .ofSeconds s, .untyped⟩

theorem aggregated_unless_overdue_woken :
    ∃ b, (step (run [merging] [(.ofSeconds 100, .timer)]).1 (.ofSeconds 101)
        (.metric (reading 100))).1[0]? = some b ∧ b.stats = ⟨1, 0, 0, 0⟩ := by
  let a := merging.follow [(.ofSeconds 100, .timer)]
  obtain ⟨b, hb, haggregated, -, hwoken⟩ := aggregated_unless_overdue [merging]
    (by decide +kernel) [(.ofSeconds 100, .timer)] (.ofSeconds 101) (reading 100) 0 a rfl rfl
    (by decide) (by decide +kernel) (by decide +kernel)
  have hdeadline := hwoken (.ofSeconds 100) (by simp) (Int.le_refl _) (by decide +kernel)
  refine ⟨b, hb, (haggregated hdeadline).2.trans ?_⟩
  decide +kernel

/-- A metric need not be aggregated just because it is neither older than the
window and its grace nor from the future. -/
theorem overdue_metric_dropped :
    ¬ ∀ (stage : List (Running Aggregator)), (∀ a ∈ stage, 0 < a.window.period.nanos) →
      ∀ (before : List (Timestamp × StageEvent)) (now : Timestamp) (m : Metric) (k : Nat)
        (a : Running Aggregator), ((before.map Prod.fst) ++ [now]).Pairwise (· ≤ ·) →
        (run stage before).1[k]? = some a → a.filter.select m = true →
        (a.filter.modify m).fields ≠ [] → a.window.start.sub a.grace ≤ m.timestamp →
        m.timestamp ≤ now →
        ∃ b, (step (run stage before).1 now (.metric m)).1[k]? = some b ∧
          b.stats = { a.stats with aggregated := a.stats.aggregated + 1 } := by
  intro h
  obtain ⟨b, hb, hstats⟩ := h [merging] (by decide +kernel) [] (.ofSeconds 100) (reading 100) 0
    merging (List.pairwise_singleton _ _) rfl rfl (by decide) (by decide +kernel)
    (by decide +kernel)
  have hsame : (merging.add (reading 100)).1 = b := by simpa [step, offerAll] using hb
  have hdropped : (merging.add (reading 100)).1.stats = ⟨0, 0, 1, 0⟩ := by decide +kernel
  rw [hsame, hstats] at hdropped
  exact absurd hdropped (by decide +kernel)

end AggregatorStage

end MetricAgent
