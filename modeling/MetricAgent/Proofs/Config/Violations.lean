import MetricAgent.Proofs.Config.Valid

/-!
# The violation that is reported

A configuration may be wrong in many places. `Config.violations` lists them all, in
the order in which they count: identifiers that repeat an earlier one of their
section come first, then the agent, and then the plugins one by one. A check stops
at the first violation that it meets, and this is the first of the list
(`Config.check_eq_reported`). It passes exactly the valid configurations, for which
the list is empty.
-/

namespace MetricAgent

def ConfigViolation.reported : List ConfigViolation → Except ConfigViolation Unit
  | [] => .ok ()
  | v :: _ => .error v

namespace Config

open ConfigViolation (reported)

def violationIf (p : Prop) [Decidable p] (v : ConfigViolation) : List ConfigViolation :=
  if p then [v] else []

/-- The members of a list that repeat an earlier one, in their order. -/
def repeats (ids : List String) : List String :=
  (ids.zipIdx.filter fun e => e.1 ∈ ids.take e.2).map Prod.fst

def idViolations (part : String) (ids : List String) : List ConfigViolation :=
  (repeats ids).map (.duplicateId part)

def sourceViolations (s : SourceConfig) : List ConfigViolation :=
  violationIf (∃ d ∈ s.interval, d.nanos = 0) (.zero ("interval of source " ++ s.plugin))

def processorViolations (p : ProcessorConfig) : List ConfigViolation :=
  violationIf (p.queueSize = 0) (.zero ("queue_size of processor " ++ p.plugin))

def aggregatorViolations (a : AggregatorConfig) : List ConfigViolation :=
  violationIf (a.period.nanos = 0) (.zero ("period of aggregator " ++ a.plugin))

/-- What is wrong with an output, and with what it takes from the agent. -/
def outputViolations (c : Config) (o : OutputConfig) : List ConfigViolation :=
  violationIf (∃ d ∈ o.flushInterval, d.nanos = 0)
      (.zero ("flush_interval of output " ++ o.plugin)) ++
    violationIf (c.batchSizeOf o = 0) (.zero ("metric_batch_size of output " ++ o.plugin)) ++
    violationIf (c.bufferLimitOf o < c.batchSizeOf o)
      (.bufferBelowBatch o.plugin (c.bufferLimitOf o) (c.batchSizeOf o))

def violations (c : Config) : List ConfigViolation :=
  idViolations "source" (c.sources.filterMap SourceConfig.id) ++
    idViolations "processor" (c.processors.filterMap ProcessorConfig.id) ++
    idViolations "aggregator" (c.aggregators.filterMap AggregatorConfig.id) ++
    idViolations "output" (c.outputs.filterMap OutputConfig.id) ++
    violationIf (c.agent.interval.nanos = 0) (.zero "agent.interval") ++
    violationIf (c.agent.flushInterval.nanos = 0) (.zero "agent.flush_interval") ++
    c.sources.flatMap sourceViolations ++
    c.processors.flatMap processorViolations ++
    c.aggregators.flatMap aggregatorViolations ++
    c.outputs.flatMap c.outputViolations

variable {c : Config}

/-! ### Reports of lists -/

theorem reported_append (vs ws : List ConfigViolation) :
    reported (vs ++ ws) = reported vs >>= fun _ => reported ws := by
  cases vs <;> rfl

theorem reported_eq_error_iff {vs : List ConfigViolation} {v : ConfigViolation} :
    reported vs = .error v ↔ vs.head? = some v := by
  cases vs with
  | nil => exact ⟨nofun, nofun⟩
  | cons w ws => simp [reported]

theorem checkAll_eq_reported {α : Type} {check : α → Except ConfigViolation Unit}
    {violationsOf : α → List ConfigViolation} (h : ∀ x, check x = reported (violationsOf x))
    (xs : List α) : checkAll check xs = reported (xs.flatMap violationsOf) := by
  induction xs with
  | nil => rfl
  | cons x xs ih => rw [checkAll, h, ih, List.flatMap_cons, reported_append]

/-! ### Identifiers -/

/-- Behind some identifiers, the first repeat is the first one that repeats any
before it. -/
theorem firstRepeat_eq_head? {seen before : List String} (hseen : ∀ i, i ∈ seen ↔ i ∈ before)
    (ids : List (Option String)) :
    firstRepeat seen ids = (((ids.filterMap id).zipIdx before.length).filter fun e =>
      e.1 ∈ (before ++ ids.filterMap id).take e.2).head?.map Prod.fst := by
  induction ids generalizing seen before with
  | nil => rfl
  | cons i rest ih =>
      cases i with
      | none => exact ih hseen
      | some i =>
          have hids : (some i :: rest).filterMap id = i :: rest.filterMap id := rfl
          have hmem : decide (i ∈ (before ++ i :: rest.filterMap id).take before.length) =
              decide (i ∈ seen) := by
            rw [List.take_left]
            exact decide_eq_decide.2 (hseen i).symm
          rw [hids, List.zipIdx_cons, List.filter_cons, firstRepeat]
          dsimp only
          rw [hmem]
          by_cases hi : i ∈ seen
          · rw [if_pos (List.contains_iff_mem.2 hi), if_pos (decide_eq_true hi)]
            rfl
          · have hnext : ∀ j, j ∈ i :: seen ↔ j ∈ before ++ [i] := by
              intro j
              rw [List.mem_cons, List.mem_append, List.mem_singleton, hseen, or_comm]
            rw [if_neg (mt List.contains_iff_mem.1 hi), if_neg (mt of_decide_eq_true hi),
              ih hnext, List.length_append, List.length_singleton, List.append_assoc,
              List.singleton_append]

theorem checkIds_eq_reported {α : Type} (part : String) (idOf : α → Option String)
    (xs : List α) :
    checkIds part (xs.map idOf) = reported (idViolations part (xs.filterMap idOf)) := by
  have hids : (xs.map idOf).filterMap id = xs.filterMap idOf := by
    rw [List.filterMap_map, Function.id_comp]
  have hfirst : firstRepeat [] (xs.map idOf) = (repeats (xs.filterMap idOf)).head? := by
    rw [firstRepeat_eq_head? (fun _ => Iff.rfl), hids, repeats, List.head?_map]
    rfl
  unfold checkIds idViolations
  rw [hfirst]
  cases repeats (xs.filterMap idOf) <;> rfl

/-! ### Plugins -/

theorem checkNonzero_eq_reported {isZero : Bool} {p : Prop} [Decidable p] (h : isZero = true ↔ p)
    (what : String) : checkNonzero isZero what = reported (violationIf p (.zero what)) := by
  unfold checkNonzero violationIf
  by_cases hp : p
  · rw [if_pos hp, if_pos (h.2 hp)]
    rfl
  · rw [if_neg hp, if_neg (mt h.1 hp)]
    rfl

theorem isZero_iff {d : Duration} : d.isZero = true ↔ d.nanos = 0 := beq_iff_eq

theorem any_isZero_iff {d : Option Duration} :
    d.any Duration.isZero = true ↔ ∃ e ∈ d, e.nanos = 0 := by
  simp only [Option.any_eq_true, isZero_iff, Option.mem_def]

theorem checkOutput_eq_reported (c : Config) (o : OutputConfig) :
    c.checkOutput o = reported (c.outputViolations o) := by
  have hbuffer : (if c.bufferLimitOf o < c.batchSizeOf o then
      Except.error (.bufferBelowBatch o.plugin (c.bufferLimitOf o) (c.batchSizeOf o))
      else .ok ()) = reported (violationIf (c.bufferLimitOf o < c.batchSizeOf o)
        (.bufferBelowBatch o.plugin (c.bufferLimitOf o) (c.batchSizeOf o))) := by
    unfold violationIf
    split <;> rfl
  unfold outputViolations
  rw [List.append_assoc, reported_append, reported_append, ← hbuffer,
    ← checkNonzero_eq_reported any_isZero_iff, ← checkNonzero_eq_reported beq_iff_eq]
  rfl

/-- A check reports the first of all violations. -/
theorem check_eq_reported (c : Config) : c.check = reported c.violations := by
  have hsource : ∀ s, checkSource s = reported (sourceViolations s) := fun s =>
    checkNonzero_eq_reported any_isZero_iff _
  have hprocessor : ∀ p, checkProcessor p = reported (processorViolations p) := fun p =>
    checkNonzero_eq_reported beq_iff_eq _
  have haggregator : ∀ a, checkAggregator a = reported (aggregatorViolations a) := fun a =>
    checkNonzero_eq_reported isZero_iff _
  unfold violations
  simp only [List.append_assoc, reported_append]
  rw [← checkIds_eq_reported, ← checkIds_eq_reported, ← checkIds_eq_reported,
    ← checkIds_eq_reported, ← checkNonzero_eq_reported isZero_iff,
    ← checkNonzero_eq_reported isZero_iff, ← checkAll_eq_reported hsource,
    ← checkAll_eq_reported hprocessor, ← checkAll_eq_reported haggregator,
    ← checkAll_eq_reported c.checkOutput_eq_reported]
  rfl

/-- A configuration passes the check exactly if it is valid, and else the first of
its violations is reported. -/
theorem first_violation_reported (c : Config) :
    (c.check = .ok () ↔ c.Valid) ∧
      ∀ v, c.check = .error v ↔ c.violations.head? = some v := by
  refine ⟨check_eq_ok_iff, fun v => ?_⟩
  rw [check_eq_reported]
  exact reported_eq_error_iff

/-- Identifiers come first, also before the agent. -/
example : ({ empty with
    agent := { AgentConfig.default with interval := Duration.zero }
    outputs := [{ OutputConfig.ofPlugin "file" with id := some "a" },
      { OutputConfig.ofPlugin "discard" with id := some "a" }] } : Config).check =
    .error (.duplicateId "output" "a") := rfl

end Config

end MetricAgent
