import MetricAgent.Proofs.Pipeline.Calls
import MetricAgent.Proofs.Pipeline.Delivery
import MetricAgent.Proofs.Pipeline.Stopping

/-!
# A service can always return

Whatever has become of the service of a pipeline that was built, while it is up
it can be brought to its return: its tasks can end, its flush loops can, and
after that nothing but the last flushes and the closes stands before the return,
whatever the sinks answer (`Service.exists_return`).
-/

namespace MetricAgent

open Relation (ReflTransGen)

namespace OutputTask

def Moves : OutputTask → OutputTask → Prop := ReflTransGen fun o o' => ∃ a, o.step a = some o'

variable {o o' : OutputTask}

theorem moves_of_step {a : LoopAction} (h : o.step a = some o') : o.Moves o' := .single ⟨a, h⟩

/-- A sink that is being written to can answer, which ends the flush. -/
theorem exists_settled {remaining : Nat} {once : Bool} {batch : Batch Metric}
    (hphase : o.phase = .flushing remaining once) (hwriting : o.writing = some batch) :
    ∃ o', o.Moves o' ∧ o'.phase = .waiting :=
  ⟨_, moves_of_step (a := .settle false) (by simp [OutputTask.step, hphase, hwriting]; rfl), rfl⟩

/-- A flush loop that has not ended can come to wait for its next flush. -/
theorem exists_waiting (h : o.phase ≠ .ended) : ∃ o', o.Moves o' ∧ o'.phase = .waiting := by
  cases hphase : o.phase with
  | waiting => exact ⟨o, .refl, hphase⟩
  | ended => exact absurd hphase h
  | flushing remaining once =>
      cases hwriting : o.writing with
      | some batch => exact exists_settled hphase hwriting
      | none =>
          let begun := o.output.beginWrite (min o.output.batchSize remaining)
          let o₁ : OutputTask := { o with output := begun.1 }
          have hstep : o.step .write = some
              (if begun.2.isEmpty then o₁.rest else { o₁ with writing := some begun.2 }) := by
            obtain ⟨output, offered, phase, writing⟩ := o
            obtain rfl : phase = .flushing remaining once := hphase
            obtain rfl : writing = none := hwriting
            rfl
          cases hempty : begun.2.isEmpty with
          | true =>
              rw [hempty] at hstep
              exact ⟨_, moves_of_step hstep, rfl⟩
          | false =>
              rw [hempty] at hstep
              obtain ⟨o', hmoves, hwaiting⟩ := exists_settled (o := { o₁ with
                writing := some begun.2 }) hphase rfl
              exact ⟨o', (moves_of_step hstep).trans hmoves, hwaiting⟩

end OutputTask

namespace Service

variable {p : Pipeline} {s s' : Service}

theorem isMade_of_build {c : Config} {r : Registry} {files : Files} {now : Duration}
    (h : Pipeline.build c r files now = .ok p) : ∀ stage ∈ p.processors, stage.IsMade := by
  intro stage hstage
  obtain ⟨settings, -, hmade⟩ := (Pipeline.stages_of_build h).1 stage hstage
  exact ⟨_, _, _, _, Pipeline.make_of_buildProcessor hmade⟩

theorem fed_start (hp : ∀ stage ∈ p.processors, stage.IsMade) : (start p).tasks.Fed := by
  have hsize : 0 < Pipeline.channelSize := by decide
  obtain ⟨hlive, hopen⟩ := Tasks.live_start hsize hp
  have hsources : (Tasks.start Pipeline.channelSize p).sources =
      p.sources.map SourceTask.start := rfl
  have hsettled : ∀ s ∈ p.sources.map SourceTask.start, s.Settled := by
    intro s hs
    obtain ⟨source, -, rfl⟩ := List.mem_map.1 hs
    exact fun _ => rfl
  have hended : (p.sources.map SourceTask.start).all SourceTask.ended = p.sources.isEmpty := by
    cases p.sources <;> rfl
  cases hempty : p.sources.isEmpty with
  | false =>
      have htasks : (start p).tasks = Tasks.start Pipeline.channelSize p := by simp [start, hempty]
      rw [htasks]
      exact ⟨hlive, by rw [hopen, Tasks.sourcesEnded, hsources, hended, hempty]; rfl, hsettled⟩
  | true =>
      obtain ⟨t, ht⟩ := Tasks.exists_pass_finish (Tasks.start Pipeline.channelSize p)
      have htasks : (start p).tasks = t := by simp [start, hempty, ht]
      obtain ⟨hlive', hopen', hkept⟩ := hlive.pass hopen ht
      rw [htasks]
      refine ⟨hlive', ?_, hkept.sources ▸ hsettled⟩
      rw [hopen', Tasks.sourcesEnded, hkept.sources, hsources, hended, hempty]
      rfl

theorem fed_step {e : ServiceEvent} (h : s.tasks.Fed) (hstep : s.step e = some s') :
    s'.tasks.Fed := by
  cases e with
  | connect failure =>
      simp only [step] at hstep
      split at hstep
      · simp only [bind, pure, Option.bind_eq_some_iff, Option.some.injEq] at hstep
        obtain ⟨o, -, rfl⟩ := hstep
        exact h
      · cases hstep
  | undo failure =>
      simp only [step] at hstep
      split at hstep <;> cases hstep
      exact h
  | task a =>
      simp only [step, Option.ite_none_right_eq_some, Option.map_eq_some_iff] at hstep
      obtain ⟨-, t, ht, rfl⟩ := hstep
      exact h.step ht
  | loop i a =>
      simp only [step, bind, pure, Option.ite_none_right_eq_some, Option.bind_eq_some_iff,
        Option.some.injEq] at hstep
      obtain ⟨-, o, -, o', -, rfl⟩ := hstep
      exact h.withOutputs _
  | shutdown =>
      simp only [step] at hstep
      split at hstep <;> cases hstep
      exact h
  | proceed =>
      simp only [step] at hstep
      split at hstep
      · split at hstep <;> cases hstep
        exact h
      · split at hstep <;> cases hstep
        exact h
      · split at hstep <;> cases hstep
        exact h
      · cases hstep
  | endLoop i =>
      simp only [step] at hstep
      split at hstep
      · simp only [onOutput, FanOut.onOutput, Option.map_eq_some_iff, Option.bind_eq_some_iff]
          at hstep
        obtain ⟨f, ⟨o', -, rfl⟩, rfl⟩ := hstep
        exact h.withOutputs _
      · cases hstep
  | finish writes failure =>
      simp only [step] at hstep
      split at hstep
      · simp only [bind, pure, Option.bind_eq_some_iff, Option.some.injEq] at hstep
        obtain ⟨o, -, rfl⟩ := hstep
        exact h.withOutputs _
      · cases hstep

theorem fed_run (h : s.tasks.Fed) (events : List ServiceEvent) : (s.run events).tasks.Fed :=
  List.foldlRecOn (motive := fun s : Service => s.tasks.Fed) events _ h fun s hs e _ => by
    unfold next
    cases hstep : s.step e with
    | none => exact hs
    | some s' => exact fed_step hs hstep

def Runs : Service → Service → Prop := ReflTransGen fun s s' => ∃ e, s.step e = some s'

theorem runs_of_step {e : ServiceEvent} (h : s.step e = some s') : s.Runs s' := .single ⟨e, h⟩

theorem Runs.exists_run (h : s.Runs s') : ∃ events, s.run events = s' := by
  induction h with
  | refl => exact ⟨[], rfl⟩
  | tail _ hstep ih =>
      obtain ⟨events, rfl⟩ := ih
      obtain ⟨e, hstep⟩ := hstep
      refine ⟨events ++ [e], ?_⟩
      simp only [run, List.foldl_append, List.foldl_cons, List.foldl_nil]
      rw [← run, next, hstep, Option.getD_some]

theorem runs_tasks {t : Tasks} (hup : s.phase.isUp = true) (h : s.tasks.Runs t) :
    s.Runs { s with tasks := t } := by
  refine ReflTransGen.lift (fun t : Tasks => ({ s with tasks := t } : Service))
    (fun t t' => ?_) _ _ h
  rintro ⟨a, hstep⟩
  exact ⟨.task a, by simp [step, hup, hstep]⟩

/-- When all tasks have ended, the service waits for its flush loops only. -/
theorem exists_endingLoops (hup : s.phase.isUp = true) (hfed : s.tasks.Fed) :
    ∃ s', s.Runs s' ∧ s'.phase = .endingLoops := by
  obtain ⟨t, hruns, hsources, hended⟩ := hfed.exists_ended
  have hpath := runs_tasks hup hruns
  have hdraining : Runs { s with phase := .draining, tasks := t }
      { s with phase := .endingLoops, tasks := t } :=
    runs_of_step (e := .proceed) (by simp [step, hended])
  have hstopping : Runs { s with phase := .stopping, tasks := t }
      { s with phase := .draining, tasks := t } :=
    runs_of_step (e := .proceed) (by simp [step, hsources])
  have hrunning : Runs { s with phase := .running, tasks := t }
      { s with phase := .stopping, tasks := t } :=
    runs_of_step (e := .shutdown) (by simp [step])
  refine ⟨{ s with phase := .endingLoops, tasks := t }, hpath.trans ?_, rfl⟩
  obtain ⟨phase, tasks, calls⟩ := s
  cases phase with
  | running => exact (hrunning.trans hstopping).trans hdraining
  | stopping => exact hstopping.trans hdraining
  | draining => exact hdraining
  | endingLoops => exact .refl
  | connecting | undoing | finishing | returned => cases hup

/-! ### The flush loops -/

theorem exists_runs_loop {i : Nat} {o o' : OutputTask} (hup : s.phase.isUp = true)
    (ho : s.outputs[i]? = some o) (h : o.Moves o') :
    ∃ s', s.Runs s' ∧ s'.phase = s.phase ∧ s'.outputs = s.outputs.set i o' := by
  induction h with
  | refl =>
      obtain ⟨hi, rfl⟩ := List.getElem?_eq_some_iff.1 ho
      exact ⟨s, .refl, rfl, (List.set_getElem_self hi).symm⟩
  | @tail o₁ o₂ _ hstep ih =>
      obtain ⟨s₁, hruns, hphase, houtputs⟩ := ih
      obtain ⟨a, hstep⟩ := hstep
      have ho₁ : s₁.outputs[i]? = some o₁ := by
        rw [houtputs, List.getElem?_set_self (List.getElem?_eq_some_iff.1 ho).1]
      let s₂ : Service := { s₁ with
        tasks := { s₁.tasks with fan := { s₁.tasks.fan with outputs := s₁.outputs.set i o₂ } }
        calls := s₁.calls ++ writeCall i a o₂ }
      have hloop : s₁.step (.loop i a) = some s₂ := by
        simp [step, hphase, hup, ho₁, hstep, s₂]
      refine ⟨s₂, hruns.trans (runs_of_step hloop), hphase, ?_⟩
      exact (congrArg (List.set · i o₂) houtputs).trans (List.set_set ..)

/-- A flush loop can end when it is told to. -/
theorem exists_loop_ended {i : Nat} {o : OutputTask} (hphase : s.phase = .endingLoops)
    (ho : s.outputs[i]? = some o) : ∃ s' o', s.Runs s' ∧ s'.phase = .endingLoops ∧
      s'.outputs = s.outputs.set i o' ∧ o'.phase = .ended := by
  by_cases hended : o.phase = .ended
  · obtain ⟨hi, rfl⟩ := List.getElem?_eq_some_iff.1 ho
    exact ⟨s, _, .refl, hphase, (List.set_getElem_self hi).symm, hended⟩
  · obtain ⟨o₁, hmoves, hwaiting⟩ := OutputTask.exists_waiting hended
    obtain ⟨s₁, hruns, hsame, houtputs⟩ := exists_runs_loop (by rw [hphase]; rfl) ho hmoves
    have ho₁ : s₁.tasks.fan.outputs[i]? = some o₁ := by
      rw [show s₁.tasks.fan.outputs = _ from houtputs,
        List.getElem?_set_self (List.getElem?_eq_some_iff.1 ho).1]
    let o₂ : OutputTask := { o₁ with phase := .ended }
    let s₂ : Service := { s₁ with
      tasks := { s₁.tasks with fan := { s₁.tasks.fan with outputs := s₁.outputs.set i o₂ } } }
    have hend : s₁.step (.endLoop i) = some s₂ := by
      simp [step, hsame, hphase, onOutput, FanOut.onOutput, ho₁, OutputTask.stop, hwaiting, s₂, o₂,
        outputs]
    refine ⟨s₂, o₂, hruns.trans (runs_of_step hend), hsame.trans hphase, ?_, rfl⟩
    exact (congrArg (List.set · i o₂) houtputs).trans (List.set_set ..)

theorem exists_loops_ended (hphase : s.phase = .endingLoops) {k : Nat} (hk : k ≤ s.outputs.length) :
    ∃ s', s.Runs s' ∧ s'.phase = .endingLoops ∧ s'.outputs.length = s.outputs.length ∧
      ∀ j < k, ∀ o, s'.outputs[j]? = some o → o.phase = .ended := by
  induction k with
  | zero => exact ⟨s, .refl, hphase, rfl, nofun⟩
  | succ k ih =>
      obtain ⟨s₁, hruns, hphase₁, hlength, hbefore⟩ := ih (Nat.le_of_succ_le hk)
      have hget : s₁.outputs[k]? = some s₁.outputs[k] := List.getElem?_eq_getElem (by omega)
      obtain ⟨s₂, o₂, hruns', hphase₂, houtputs, hended⟩ := exists_loop_ended hphase₁ hget
      refine ⟨s₂, hruns.trans hruns', hphase₂, by rw [houtputs, List.length_set, hlength],
        fun j hj o ho => ?_⟩
      rw [houtputs, List.getElem?_set] at ho
      split at ho
      · simp only [Option.ite_none_right_eq_some, Option.some.injEq] at ho
        rwa [← ho.2]
      · exact hbefore j (by omega) o ho

/-- A service that is up can come to its last flushes. -/
theorem exists_finishing (hup : s.phase.isUp = true) (hfed : s.tasks.Fed) :
    ∃ s', s.Runs s' ∧ s'.phase = s'.finishFrom 0 := by
  obtain ⟨s₁, hruns, hphase⟩ := exists_endingLoops hup hfed
  obtain ⟨s₂, hruns', hphase₂, hlength, hall⟩ := exists_loops_ended hphase (Nat.le_refl _)
  have hended : (s₂.outputs.all fun o => o.phase = .ended) = true := by
    rw [List.all_eq_true]
    intro o ho
    obtain ⟨j, hj, rfl⟩ := List.mem_iff_getElem.1 ho
    exact decide_eq_true (hall j (hlength ▸ hj) _ (List.getElem?_eq_getElem hj))
  have hproceed : s₂.step .proceed = some { s₂ with phase := s₂.finishFrom 0 } := by
    simp only [step, hphase₂, hended, if_true]
  exact ⟨_, (hruns.trans hruns').trans (runs_of_step hproceed), rfl⟩

/-- A service that is up can be brought to its return, and no answer of a sink to
a last flush or a close keeps it from it. -/
theorem exists_return {c : Config} {r : Registry} {files : Files} {now : Duration}
    (hbuild : Pipeline.build c r files now = .ok p) (events : List ServiceEvent)
    (hup : ((start p).run events).phase.isUp = true) :
    ∃ more, ∀ answers : List (List (Option String) × Option String),
      answers.length = p.outlets.length →
        (((start p).run events).run (more ++ answers.map fun a => .finish a.1 a.2)).phase =
          .returned none := by
  have hfed := fed_run (fed_start (isMade_of_build hbuild)) events
  have hlawful := (lawful_start p).run events
  generalize (start p).run events = s at hup hfed hlawful
  obtain ⟨s', hruns, hphase⟩ := exists_finishing hup hfed
  obtain ⟨more, rfl⟩ := hruns.exists_run
  refine ⟨more, fun answers hanswers => ?_⟩
  have hlength := length_of_names (hlawful.run more).names
  rw [run, List.foldl_append]
  exact phase_run_finish hphase (hanswers.trans hlength.symm)

end Service

end MetricAgent
