import MetricAgent.Proofs.Processor.Order

/-!
# Permits

A metric has a permit from before it is queued until its result has been sent.
A permit is taken where a number is given out, and given back where a result is
counted as sent (`Dispatcher.Step.balanced`). So the metrics inside are as many
as the permits in use, however they are spread over queues, workers and emitter,
and there are no more of them than places in either queue: nobody who has a
permit ever waits for a place.
-/

namespace MetricAgent

namespace Dispatcher

variable {p : Processor} {ms : List Metric} {begun : List JobResult} {d e : Dispatcher}

def inside (d : Dispatcher) : Nat :=
  d.entering.toList.length + d.jobs.length + d.busy.length + d.holding.length + d.results.length +
    d.waiting.length + d.emitting.toList.length

/-- The permits in use are those of the metrics that have a number and are not
counted as sent. -/
def Balanced (d : Dispatcher) : Prop := d.permits + d.nextSeq = d.queueSize + d.nextOut

theorem balanced_make (ordered : Bool) (workers queueSize : Nat) :
    (make ordered workers queueSize).Balanced :=
  rfl

theorem Step.balanced {a : DispatchAction} (h : Step p d a e) (hb : d.Balanced) : e.Balanced := by
  unfold Balanced at hb ⊢
  cases h with
  | enqueue hpermits hentering =>
      dsimp only
      omega
  | release hemitting =>
      dsimp only
      omega
  | _ => exact hb

/-- A metric that came in has been sent or is inside. -/
theorem Sound.length_eq (hs : d.Sound p ms begun) : ms.length = d.nextOut + d.inside := by
  have hlen := hs.results.length_eq
  have hout := hs.nextOut
  simp only [pending, Processor.results, List.length_append, List.length_map, List.length_mapIdx]
    at hlen
  unfold inside
  omega

/-- Each metric inside has one permit, and no other permit is in use. -/
theorem Sound.permits_add_inside (hs : d.Sound p ms begun) (hb : d.Balanced) :
    d.permits + d.inside = d.queueSize := by
  have hlen := hs.length_eq
  have hnext := hs.nextSeq
  unfold Balanced at hb
  omega

/-- With a permit, there is a place in the queue of metrics. -/
theorem exists_queueUp (hle : d.inside ≤ d.queueSize) {job : Job}
    (hentering : d.entering = some job) : ∃ e, Step p d .queueUp e := by
  have hroom : d.jobs.length < d.queueSize := by
    simp only [inside, hentering, Option.toList_some, List.length_singleton] at hle
    omega
  exact ⟨_, .queueUp hentering hroom⟩

/-- With a permit, there is a place in the queue of results. -/
theorem exists_handOver (hle : d.inside ≤ d.queueSize) {i : Nat} (hi : i < d.holding.length) :
    ∃ e, Step p d (.handOver i) e := by
  have hroom : d.results.length < d.queueSize := by
    simp only [inside] at hle
    omega
  exact ⟨_, .handOver (List.getElem?_eq_getElem hi) hroom⟩

/-! ### Results that are kept back -/

/-- An unordered emitter keeps no result back. -/
def KeepsIfOrdered (d : Dispatcher) : Prop := d.ordered = false → d.waiting = []

theorem Step.keepsIfOrdered {a : DispatchAction} (h : Step p d a e) (hk : d.KeepsIfOrdered) :
    e.KeepsIfOrdered := by
  cases h with
  | keep hresults hemitting hnext hordered =>
      intro hunordered
      exact absurd (hordered.symm.trans hunordered) (by decide)
  | start hemitting hnext =>
      intro hunordered
      rw [hk hunordered]
      rfl
  | _ => exact hk

end Dispatcher

namespace DispatcherRun

variable {p : Processor} {ordered : Bool} {r s : DispatcherRun}

structure Permitted (r : DispatcherRun) : Prop where
  balanced : r.dispatcher.Balanced
  keepsIfOrdered : r.dispatcher.KeepsIfOrdered

theorem permitted_start (ordered : Bool) (workers queueSize : Nat) :
    (start ordered workers queueSize).Permitted :=
  ⟨Dispatcher.balanced_make ordered workers queueSize, fun _ => rfl⟩

/-- What happens to a run happens to its dispatcher in a step, or not at all. -/
theorem dispatcher_step {event : DispatcherEvent} (h : r.step p event = some s) :
    ((∀ a, event ≠ .act a) ∧ s.dispatcher = r.dispatcher ∧ s.enqueued = r.enqueued) ∨
      ∃ a, event = .act a ∧ Dispatcher.Step p r.dispatcher a s.dispatcher ∧
        s.enqueued = r.enqueued ++ a.enqueued?.toList := by
  cases event with
  | act a =>
      simp only [step, Option.ite_none_left_eq_some, Option.map_eq_some_iff] at h
      obtain ⟨-, d, hd, rfl⟩ := h
      exact .inr ⟨a, rfl, Dispatcher.Step.of_step hd, rfl⟩
  | close =>
      simp only [step, Option.ite_none_left_eq_some, Option.some.injEq] at h
      obtain ⟨-, rfl⟩ := h
      exact .inl ⟨by simp, rfl, rfl⟩
  | leave =>
      simp only [step, Option.ite_none_right_eq_some, Option.some.injEq] at h
      obtain ⟨-, rfl⟩ := h
      exact .inl ⟨by simp, rfl, rfl⟩
  | stop =>
      simp only [step, Option.ite_none_right_eq_some, Option.some.injEq] at h
      obtain ⟨-, rfl⟩ := h
      exact .inl ⟨by simp, rfl, rfl⟩

theorem Permitted.step (hp : r.Permitted) {event : DispatcherEvent} (h : r.step p event = some s) :
    s.Permitted := by
  rcases dispatcher_step h with ⟨-, hsame, -⟩ | ⟨a, -, hstep, -⟩
  · exact ⟨hsame ▸ hp.balanced, hsame ▸ hp.keepsIfOrdered⟩
  · exact ⟨hstep.balanced hp.balanced, hstep.keepsIfOrdered hp.keepsIfOrdered⟩

theorem Permitted.run (hp : r.Permitted) (events : List DispatcherEvent) :
    (r.run p events).Permitted :=
  run_induction (fun _ _ _ hp h => hp.step h) hp events

theorem queueSize_run (r : DispatcherRun) (events : List DispatcherEvent) :
    (r.run p events).dispatcher.queueSize = r.dispatcher.queueSize := by
  refine run_induction (P := fun s => s.dispatcher.queueSize = r.dispatcher.queueSize)
    (fun r s event hsize h => ?_) rfl events
  rcases dispatcher_step h with ⟨-, hsame, -⟩ | ⟨a, -, hstep, -⟩
  · rw [hsame, hsize]
  · rw [hstep.settings.2.2, hsize]

end DispatcherRun

end MetricAgent
