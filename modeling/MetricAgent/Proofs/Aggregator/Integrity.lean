import MetricAgent.Aggregator.Stage
import MetricAgent.Proofs.Metric.Integrity

/-!
# Aggregators give out well-formed metrics

An aggregator that merges holds metrics, and those have to be well-formed for it
to be `Intact`. The other one makes all that it gives out. What is taken in has
passed a filter that leaves a field, and what is given out is renamed and gets
tags, so the whole stage gives out well-formed metrics for well-formed ones.
-/

namespace MetricAgent

theorem LastMetrics.wellFormed_finished {m out : Metric} (h : finished? m = some out) :
    out.WellFormed := by
  unfold finished? at h
  split at h
  · next hmade =>
    cases h
    exact (Metric.wellFormed_make hmade).addTags m.tags
  · cases h

namespace Aggregator

/-- All metrics that an aggregator is going to give out as they are, are
well-formed. -/
def Intact : Aggregator → Prop
  | .merge groups => groups.Intact
  | .final .. => True

variable {a : Aggregator} {m : Metric} {now : Timestamp}

theorem Intact.observe (h : a.Intact) (hm : m.WellFormed) : (a.observe m).Intact := by
  cases a with
  | merge groups => exact Grouper.Intact.addMetric h hm
  | final timeout last => trivial

theorem intact_reset (a : Aggregator) : a.reset.Intact := by
  cases a with
  | merge groups => exact List.forall_mem_nil _
  | final timeout last => trivial

theorem Intact.wellFormed_pushed (h : a.Intact) : ∀ m ∈ (a.pushed now).1, m.WellFormed := by
  cases a with
  | merge groups => exact h
  | final timeout last =>
      intro m hm
      obtain ⟨n, -, hn⟩ := List.mem_filterMap.1 hm
      exact LastMetrics.wellFormed_finished hn

end Aggregator

namespace Running

def Intact (a : Running Aggregator) : Prop := a.aggregator.Intact

variable {a b : Running Aggregator} {m n : Metric} {now : Timestamp} {out : List Metric}

theorem wellFormed_of_aggregated (hm : m.WellFormed) (h : a.offer m = .aggregated n) :
    n.WellFormed := by
  unfold offer at h
  split at h
  · cases h
  · dsimp only at h
    split at h
    · cases h
    · next hfields =>
      split at h
      · cases h
      · cases h
        exact Filter.wellFormed_modify hm (Bool.eq_false_iff.2 hfields)

theorem Intact.add (h : a.Intact) (hm : m.WellFormed) : (a.add m).1.Intact := by
  unfold Running.add
  split
  · exact h
  · exact h
  · exact h
  · next n hoffer => exact Aggregator.Intact.observe h (wellFormed_of_aggregated hm hoffer)

theorem Intact.push (h : a.Intact) (hpush : a.push? now = some (b, out)) :
    b.Intact ∧ ∀ m ∈ out, m.WellFormed := by
  simp only [push?, bind, pure, Option.bind_eq_some_iff, Option.some.injEq, Prod.mk.injEq] at hpush
  obtain ⟨window, -, rfl, rfl⟩ := hpush
  refine ⟨Aggregator.intact_reset _, fun m hm => ?_⟩
  obtain ⟨n, hn, rfl⟩ := List.mem_map.1 hm
  exact ((Aggregator.Intact.wellFormed_pushed h n hn).rename a.rename).addMissingTags a.tags

end Running

namespace AggregatorStage

def Intact (stage : List (Running Aggregator)) : Prop := ∀ a ∈ stage, a.Intact

variable {stage : List (Running Aggregator)}

theorem Intact.offerAll (h : Intact stage) {m : Metric} (hm : m.WellFormed) :
    Intact (offerAll m stage).1 := by
  induction stage with
  | nil => exact h
  | cons a rest ih =>
      obtain ⟨ha, hrest⟩ := List.forall_mem_cons.1 h
      exact List.forall_mem_cons.2 ⟨ha.add hm, ih hrest⟩

theorem Intact.pushWhere (h : Intact stage) (now : Timestamp) (test : Running Aggregator → Bool) :
    Intact (pushWhere now test stage).1 ∧ ∀ m ∈ (pushWhere now test stage).2, m.WellFormed := by
  induction stage with
  | nil => exact ⟨h, List.forall_mem_nil _⟩
  | cons a rest ih =>
      obtain ⟨ha, hrest⟩ := List.forall_mem_cons.1 h
      obtain ⟨hstage, hothers⟩ := ih hrest
      have hpush : (if test a then push now a else (a, [])).1.Intact ∧
          ∀ m ∈ (if test a then push now a else (a, [])).2, m.WellFormed := by
        split
        · unfold push
          cases hpushed : a.push? now with
          | none => exact ⟨ha, List.forall_mem_nil _⟩
          | some r => exact ha.push hpushed
        · exact ⟨ha, List.forall_mem_nil _⟩
      exact ⟨List.forall_mem_cons.2 ⟨hpush.1, hstage⟩, fun m hm =>
        (List.mem_append.1 hm).elim (hpush.2 m) (hothers m)⟩

/-- The stage handles an event. -/
theorem Intact.step (h : Intact stage) (now : Timestamp) {e : StageEvent}
    (he : ∀ m, e = .metric m → m.WellFormed) :
    Intact (step stage now e).1 ∧ ∀ m ∈ (step stage now e).2, m.WellFormed := by
  cases e with
  | metric m =>
      refine ⟨h.offerAll (he m rfl), fun n hn => ?_⟩
      simp only [AggregatorStage.step] at hn
      split at hn
      · cases hn
      · rw [List.mem_singleton.1 hn]
        exact he m rfl
  | timer => exact h.pushWhere now (isDue now)
  | stop => exact h.pushWhere now fun _ => true

theorem Intact.feed (h : Intact stage) (now : Timestamp) {ms : List Metric}
    (hms : ∀ m ∈ ms, m.WellFormed) :
    Intact (feed stage now ms).1 ∧ ∀ m ∈ (feed stage now ms).2, m.WellFormed := by
  induction ms generalizing stage with
  | nil => exact ⟨h, List.forall_mem_nil _⟩
  | cons m ms ih =>
      obtain ⟨hm, hrest⟩ := List.forall_mem_cons.1 hms
      obtain ⟨hstage, hout⟩ := h.step now (e := .metric m) (by rintro n ⟨⟩; exact hm)
      obtain ⟨hlast, hfurther⟩ := ih hstage hrest
      exact ⟨hlast, fun n hn => (List.mem_append.1 hn).elim (hout n) (hfurther n)⟩

end AggregatorStage
end MetricAgent
