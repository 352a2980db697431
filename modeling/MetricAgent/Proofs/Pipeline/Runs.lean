import MetricAgent.Pipeline.Run

/-!
# What lasts in a run

Between the moment at which all sinks are connected and the one at which the
outlets are finished, time passes, things become due and the sources are told to
stop. What none of these ends is an `Invariant`, and holds when the outlets are
finished (`Invariant.exists_last`).
-/

namespace MetricAgent.PipelineRun

/-- A property of runs that lasts. -/
structure Invariant (wall : Timestamp) (I : PipelineRun → Prop) : Prop where
  time : ∀ r time, I r → I { r with time := time }
  handle : ∀ r due, I r → I (r.handle wall due)
  stopSources : ∀ r, I r → I r.stopSources

variable {wall : Timestamp} {I : PipelineRun → Prop} {r : PipelineRun}

theorem Invariant.advance (h : Invariant wall I) (hr : I r) (stop : Nat) :
    I (r.advance wall stop) := by
  unfold PipelineRun.advance
  generalize dueBound r.pipeline (stop - r.time) = fuel
  induction fuel generalizing r with
  | zero => exact h.time r _ hr
  | succ fuel ih =>
      simp only [advanceWithin]
      split
      · next time due _ =>
        split
        · exact ih (h.handle _ due (h.time r _ hr))
        · exact h.time r _ hr
      · exact h.time r _ hr

theorem Invariant.probe (h : Invariant wall I) (hr : I r) (moments : List Nat) :
    I (r.probe wall moments).1 := by
  induction moments generalizing r with
  | nil => exact hr
  | cons t ts ih =>
      simp only [PipelineRun.probe]
      exact ih (h.advance hr t)

/-- A run that has connected all sinks comes to its end by finishing the outlets. -/
theorem Invariant.exists_last (h : Invariant wall I) {p : Pipeline} {log : List LogEntry}
    (hconnect : connectAll [] p.outlets = (log, none)) (hstart : I { start p with log := log })
    (stop : Nat) (probes : List Nat) :
    ∃ last, I last ∧ (p.run wall stop probes).failure = none ∧
      (p.run wall stop probes).log = last.finish.log := by
  let first : PipelineRun := { start p with log := log }
  let stopped := ((first.probe wall (probes.filter (· ≤ stop))).1.advance wall stop).stopSources
  let late := (probes.filter (stop < ·)).filter (· ≤ stopped.lastGather)
  have hstopped : I stopped := h.stopSources _ (h.advance (h.probe hstart _) stop)
  refine ⟨(stopped.probe wall late).1.advance wall stopped.lastGather,
    h.advance (h.probe hstopped late) _, ?_⟩
  simp only [Pipeline.run, hconnect]
  exact ⟨trivial, rfl⟩

end MetricAgent.PipelineRun
