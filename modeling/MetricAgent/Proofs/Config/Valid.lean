import MetricAgent.Config.Check
import MetricAgent.Proofs.Outcomes

/-!
# What a check lets through

`Config.Valid` says what a configuration has to fulfil to be run, without an
order of the checks. A configuration passes the check exactly if it does
(`Config.check_eq_ok_iff`). What a source or an output takes from the agent is
then in order as well, as the settings of the agent are checked with the others.
-/

namespace MetricAgent

namespace Config

/-- No identifier occurs twice, nothing repeats without an interval, and every
queue and every buffer has a place for what it is for. -/
structure Valid (c : Config) : Prop where
  sourceIds : (c.sources.filterMap SourceConfig.id).Nodup
  processorIds : (c.processors.filterMap ProcessorConfig.id).Nodup
  aggregatorIds : (c.aggregators.filterMap AggregatorConfig.id).Nodup
  outputIds : (c.outputs.filterMap OutputConfig.id).Nodup
  interval : 0 < c.agent.interval.nanos
  flushInterval : 0 < c.agent.flushInterval.nanos
  sources : ∀ s ∈ c.sources, ∀ d, s.interval = some d → 0 < d.nanos
  processors : ∀ p ∈ c.processors, 0 < p.queueSize
  aggregators : ∀ a ∈ c.aggregators, 0 < a.period.nanos
  outputs : ∀ o ∈ c.outputs, (∀ d, o.flushInterval = some d → 0 < d.nanos) ∧
    0 < c.batchSizeOf o ∧ c.batchSizeOf o ≤ c.bufferLimitOf o

variable {c : Config}

theorem firstRepeat_eq_none_iff (seen : List String) (ids : List (Option String)) :
    firstRepeat seen ids = none ↔
      (ids.filterMap id).Nodup ∧ ∀ i ∈ ids.filterMap id, i ∉ seen := by
  induction ids generalizing seen with
  | nil => simp [firstRepeat]
  | cons i rest ih =>
      cases i with
      | none => simpa [firstRepeat] using ih seen
      | some i =>
          have hids : (some i :: rest).filterMap id = i :: rest.filterMap id := rfl
          rw [hids, List.nodup_cons, List.forall_mem_cons, firstRepeat]
          by_cases hseen : i ∈ seen
          · rw [if_pos (by simpa using hseen)]
            exact iff_of_false nofun fun h => h.2.1 hseen
          · rw [if_neg (by simpa using hseen), ih]
            simp only [List.mem_cons, not_or]
            constructor
            · rintro ⟨hnodup, hrest⟩
              exact ⟨⟨fun hmem => (hrest i hmem).1 rfl, hnodup⟩, hseen, fun j hj => (hrest j hj).2⟩
            · rintro ⟨⟨hnot, hnodup⟩, -, hrest⟩
              refine ⟨hnodup, fun j hj => ⟨?_, hrest j hj⟩⟩
              rintro rfl
              exact hnot hj

theorem checkIds_eq_ok_iff {α : Type} {part : String} {idOf : α → Option String} {xs : List α} :
    checkIds part (xs.map idOf) = .ok () ↔ (xs.filterMap idOf).Nodup := by
  have hnone := firstRepeat_eq_none_iff [] (xs.map idOf)
  rw [List.filterMap_map, Function.id_comp] at hnone
  rw [← (hnone.trans (and_iff_left fun _ _ => List.not_mem_nil))]
  unfold checkIds
  cases firstRepeat [] (xs.map idOf) <;> simp

theorem checkNonzero_eq_ok_iff {isZero : Bool} {what : String} :
    checkNonzero isZero what = .ok () ↔ isZero = false := by
  cases isZero <;> simp [checkNonzero]

theorem checkAll_eq_ok_iff {α : Type} {check : α → Except ConfigViolation Unit} {xs : List α} :
    checkAll check xs = .ok () ↔ ∀ x ∈ xs, check x = .ok () := by
  induction xs with
  | nil => simp [checkAll]
  | cons x xs ih => rw [checkAll, then_eq_ok, ih, List.forall_mem_cons]

theorem checkSource_eq_ok_iff {s : SourceConfig} :
    checkSource s = .ok () ↔ ∀ d, s.interval = some d → 0 < d.nanos := by
  simp only [checkSource, checkNonzero_eq_ok_iff, Option.any_eq_false,
    Duration.isZero_eq_false_iff]

theorem checkProcessor_eq_ok_iff {p : ProcessorConfig} :
    checkProcessor p = .ok () ↔ 0 < p.queueSize := by
  simp [checkProcessor, checkNonzero_eq_ok_iff, Nat.pos_iff_ne_zero]

theorem checkAggregator_eq_ok_iff {a : AggregatorConfig} :
    checkAggregator a = .ok () ↔ 0 < a.period.nanos :=
  checkNonzero_eq_ok_iff.trans Duration.isZero_eq_false_iff

theorem checkOutput_eq_ok_iff {o : OutputConfig} :
    c.checkOutput o = .ok () ↔ (∀ d, o.flushInterval = some d → 0 < d.nanos) ∧
      0 < c.batchSizeOf o ∧ c.batchSizeOf o ≤ c.bufferLimitOf o := by
  simp only [checkOutput, then_eq_ok, checkNonzero_eq_ok_iff, Option.any_eq_false,
    Duration.isZero_eq_false_iff, beq_eq_false_iff_ne, ne_eq, Nat.pos_iff_ne_zero]
  refine and_congr_right fun _ => and_congr_right fun _ => ?_
  split
  · next hlt => exact iff_of_false nofun (Nat.not_le_of_lt hlt)
  · next hlt => exact iff_of_true rfl (Nat.le_of_not_lt hlt)

/-- A configuration passes the check exactly if it is valid. -/
theorem check_eq_ok_iff : c.check = .ok () ↔ c.Valid := by
  simp only [check, then_eq_ok, checkIds_eq_ok_iff, checkNonzero_eq_ok_iff, checkAll_eq_ok_iff,
    Duration.isZero_eq_false_iff, checkSource_eq_ok_iff, checkProcessor_eq_ok_iff,
    checkAggregator_eq_ok_iff, checkOutput_eq_ok_iff]
  constructor
  · rintro ⟨hsourceIds, hprocessorIds, haggregatorIds, houtputIds, hinterval, hflushInterval,
      hsources, hprocessors, haggregators, houtputs⟩
    exact ⟨hsourceIds, hprocessorIds, haggregatorIds, houtputIds, hinterval, hflushInterval,
      hsources, hprocessors, haggregators, houtputs⟩
  · intro hv
    exact ⟨hv.sourceIds, hv.processorIds, hv.aggregatorIds, hv.outputIds, hv.interval,
      hv.flushInterval, hv.sources, hv.processors, hv.aggregators, hv.outputs⟩

/-- A source gathers at an interval, its own or that of the agent. -/
theorem Valid.intervalOf_pos (hv : c.Valid) {s : SourceConfig} (hs : s ∈ c.sources) :
    0 < (c.intervalOf s).nanos := by
  unfold intervalOf
  cases h : s.interval with
  | none => exact hv.interval
  | some d => exact hv.sources s hs d h

/-- An output flushes at an interval, its own or that of the agent. -/
theorem Valid.flushIntervalOf_pos (hv : c.Valid) {o : OutputConfig} (ho : o ∈ c.outputs) :
    0 < (c.flushIntervalOf o).nanos := by
  unfold flushIntervalOf
  cases h : o.flushInterval with
  | none => exact hv.flushInterval
  | some d => exact (hv.outputs o ho).1 d h

end Config

end MetricAgent
