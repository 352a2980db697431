import MetricAgent.Proofs.Metric.Integrity
import MetricAgent.Proofs.Pipeline.Steps
import MetricAgent.Proofs.Processor.Progress

/-!
# Processors pass well-formed metrics on

A processor is `Sound` if it makes nothing but well-formed metrics of a
well-formed one. Then so it is of whatever runs it: metrics wait in links, queues
and at workers, results wait for their turn, and none of that changes them.
-/

namespace MetricAgent

namespace Processor

def Sound (p : Processor) : Prop :=
  ∀ m ms, m.WellFormed → p m = some ms → ∀ n ∈ ms, n.WellFormed

variable {p : Processor}

theorem sound_copy (rename : Rename) (tags : List (String × String)) :
    Sound (copy rename tags) := by
  rintro m ms hm ⟨⟩ n hn
  rcases List.mem_cons.1 hn with rfl | hn
  · exact (hm.rename rename).addTags tags
  · rw [List.mem_singleton.1 hn]
    exact hm

theorem sound_retag (set : List (String × String)) (remove : List String) (overwrite : Bool) :
    Sound (retag set remove overwrite) := by
  rintro m ms hm ⟨⟩ n hn
  rw [List.mem_singleton.1 hn]
  have hremoved := hm.removeTags remove
  split
  · exact hremoved.addTags set
  · exact hremoved.addMissingTags set

theorem Sound.yields (h : p.Sound) {m : Metric} (hm : m.WellFormed) :
    ∀ n ∈ p.yields m, n.WellFormed := by
  unfold Processor.yields
  cases hp : p m with
  | none => exact List.forall_mem_nil _
  | some ms => exact h m ms hm hp

end Processor

def JobResult.Intact (r : JobResult) : Prop := ∀ m ∈ r.metrics, m.WellFormed

namespace Dispatcher

/-- All metrics in a dispatcher are well-formed, before and after they have been
transformed. -/
structure Intact (d : Dispatcher) : Prop where
  entering : ∀ job, d.entering = some job → job.metric.WellFormed
  jobs : ∀ job ∈ d.jobs, job.metric.WellFormed
  busy : ∀ job ∈ d.busy, job.metric.WellFormed
  holding : ∀ r ∈ d.holding, r.Intact
  results : ∀ r ∈ d.results, r.Intact
  waiting : ∀ r ∈ d.waiting, r.Intact
  emitting : ∀ ms, d.emitting = some ms → ∀ m ∈ ms, m.WellFormed
  sent : ∀ m ∈ d.sent, m.WellFormed

variable {p : Processor} {d e : Dispatcher} {a : DispatchAction}

theorem intact_make (ordered : Bool) (workers queueSize : Nat) :
    (make ordered workers queueSize).Intact :=
  ⟨fun _ h => (nomatch h), List.forall_mem_nil _, List.forall_mem_nil _, List.forall_mem_nil _,
    List.forall_mem_nil _, List.forall_mem_nil _, fun _ h => (nomatch h), List.forall_mem_nil _⟩

/-- Each action moves metrics, and only a worker changes one. -/
theorem Intact.step (h : d.Intact) (hp : p.Sound)
    (ha : ∀ m, a.enqueued? = some m → m.WellFormed) (hstep : Step p d a e) : e.Intact := by
  cases hstep with
  | enqueue _ _ =>
      exact { h with entering := by rintro job ⟨⟩; exact ha _ rfl }
  | queueUp hentering _ =>
      have hjob := h.entering _ hentering
      exact { h with
        entering := fun _ h => nomatch h
        jobs := List.forall_mem_append.2 ⟨h.jobs, List.forall_mem_singleton.2 hjob⟩ }
  | pick hjobs _ =>
      obtain ⟨hjob, hrest⟩ := List.forall_mem_cons.1 (hjobs ▸ h.jobs)
      exact { h with
        jobs := hrest
        busy := List.forall_mem_append.2 ⟨h.busy, List.forall_mem_singleton.2 hjob⟩ }
  | finish hbusy =>
      have hresult := hp.yields (h.busy _ (List.mem_of_getElem? hbusy))
      exact { h with
        busy := fun job hjob => h.busy job (List.mem_of_mem_eraseIdx hjob)
        holding := List.forall_mem_append.2 ⟨h.holding, List.forall_mem_singleton.2 hresult⟩ }
  | handOver hholding _ =>
      have hresult := h.holding _ (List.mem_of_getElem? hholding)
      exact { h with
        holding := fun r hr => h.holding r (List.mem_of_mem_eraseIdx hr)
        results := List.forall_mem_append.2 ⟨h.results, List.forall_mem_singleton.2 hresult⟩ }
  | keep hresults _ _ _ =>
      obtain ⟨hr, hrest⟩ := List.forall_mem_cons.1 (hresults ▸ h.results)
      exact { h with
        results := hrest
        waiting := List.forall_mem_append.2 ⟨h.waiting, List.forall_mem_singleton.2 hr⟩ }
  | pass hresults _ _ _ =>
      obtain ⟨hr, hrest⟩ := List.forall_mem_cons.1 (hresults ▸ h.results)
      exact { h with results := hrest, emitting := by rintro ms ⟨⟩; exact hr }
  | start _ hnext =>
      have hr := h.waiting _ (List.mem_of_find?_eq_some hnext)
      exact { h with
        waiting := fun r hr => h.waiting r (List.mem_of_mem_filter hr)
        emitting := by rintro ms ⟨⟩; exact hr }
  | send hemitting =>
      obtain ⟨hm, hrest⟩ := List.forall_mem_cons.1 (h.emitting _ hemitting)
      exact { h with
        emitting := by rintro ms ⟨⟩; exact hrest
        sent := List.forall_mem_append.2 ⟨h.sent, List.forall_mem_singleton.2 hm⟩ }
  | release _ => exact { h with emitting := fun _ h => nomatch h }

theorem Intact.settleWithin {fuel : Nat} (h : d.Intact) (hp : p.Sound) :
    (settleWithin p fuel d).Intact := by
  induction fuel generalizing d with
  | zero => exact h
  | succ fuel ih =>
      unfold Dispatcher.settleWithin
      split
      · next e hnext =>
        obtain ⟨a, ha, hstep⟩ := Option.bind_eq_some_iff.1 hnext
        refine ih (h.step hp (fun m hm => ?_) (step_eq_some_iff.1 hstep))
        rw [enqueued?_of_nextAction? ha] at hm
        cases hm
      · exact h

theorem Intact.enqueueAll {ms : List Metric} (h : d.Intact) (hp : p.Sound)
    (hms : ∀ m ∈ ms, m.WellFormed) : (d.enqueueAll p ms).Intact := by
  refine List.foldlRecOn (motive := Intact) ms _ h fun d hd m hm => ?_
  have hentered : ((d.step p (.enqueue m)).getD d).Intact := by
    cases hstep : d.step p (.enqueue m) with
    | none => exact hd
    | some e => exact hd.step hp (by rintro n ⟨⟩; exact hms m hm) (step_eq_some_iff.1 hstep)
  exact hentered.settleWithin hp

end Dispatcher

namespace ProcessorStage

/-- A sound processor runs, and has nothing at hand that is not well-formed. -/
def Intact : ProcessorStage → Prop
  | .inline p => p.Sound
  | .spread p d => p.Sound ∧ d.Intact

theorem intact_make {p : Processor} (hp : p.Sound) (workers : Nat) (ordered : Bool)
    (queueSize : Nat) : (make p workers ordered queueSize).Intact := by
  unfold make
  split
  · exact ⟨hp, Dispatcher.intact_make ordered workers queueSize⟩
  · exact hp

variable {s : ProcessorStage} {stages : List ProcessorStage} {ms : List Metric}

theorem Intact.feed (h : s.Intact) (hms : ∀ m ∈ ms, m.WellFormed) :
    (s.feed ms).1.Intact ∧ ∀ m ∈ (s.feed ms).2, m.WellFormed := by
  cases s with
  | inline p =>
      refine ⟨h, fun m hm => ?_⟩
      obtain ⟨n, hn, hm⟩ := List.mem_flatMap.1 hm
      exact Processor.Sound.yields h (hms n hn) m hm
  | spread p d =>
      obtain ⟨hp, hd⟩ := h
      have hfed := hd.enqueueAll hp hms
      exact ⟨⟨hp, { hfed with sent := List.forall_mem_nil _ }⟩, hfed.sent⟩

theorem Intact.feedAll (h : ∀ s ∈ stages, s.Intact) (hms : ∀ m ∈ ms, m.WellFormed) :
    (∀ s ∈ (feedAll ms stages).1, s.Intact) ∧ ∀ m ∈ (feedAll ms stages).2, m.WellFormed := by
  induction stages generalizing ms with
  | nil => exact ⟨h, hms⟩
  | cons s rest ih =>
      obtain ⟨hs, hrest⟩ := List.forall_mem_cons.1 h
      obtain ⟨hfed, hout⟩ := hs.feed hms
      obtain ⟨hstages, hlast⟩ := ih hrest hout
      exact ⟨List.forall_mem_cons.2 ⟨hfed, hstages⟩, hlast⟩

end ProcessorStage

namespace Link

def Intact (l : Link) : Prop := ∀ m ∈ l.queue, m.WellFormed

end Link

def Passage.Intact (passage : Passage) : Prop := ∀ m ∈ passage.metrics, m.WellFormed

namespace Passage

theorem intact_nothing : nothing.Intact := List.forall_mem_nil _

theorem intact_finish : finish.Intact := List.forall_mem_nil _

theorem intact_metric {m : Metric} (hm : m.WellFormed) : (metric m).Intact :=
  List.forall_mem_singleton.2 hm

end Passage

namespace Link

variable {l l' : Link}

theorem intact_make (size : Nat) : (make size).Intact := List.forall_mem_nil _

theorem intact_leave (l : Link) : l.leave.Intact := List.forall_mem_nil _

theorem Intact.pass {passage : Passage} (h : l.Intact) (hpassage : passage.Intact)
    (hpass : l.pass? passage = some l') : l'.Intact := by
  cases passage with
  | nothing =>
      cases hpass
      exact h
  | finish =>
      cases hpass
      exact h
  | metric m =>
      simp only [pass?, send?] at hpass
      split at hpass
      · simp only [Option.ite_none_right_eq_some, Option.some.injEq] at hpass
        obtain ⟨-, rfl⟩ := hpass
        exact List.forall_mem_append.2 ⟨h, hpassage⟩
      · cases hpass
        exact h

/-- The first metric is taken from a link. -/
theorem Intact.take {m : Metric} {rest : List Metric} (h : l.Intact)
    (hqueue : l.queue = m :: rest) : m.WellFormed ∧ ({ l with queue := rest } : Link).Intact :=
  List.forall_mem_cons.1 (hqueue ▸ h)

end Link

namespace DispatcherRun

variable {p : Processor} {r s : DispatcherRun}

/-- An event of a dispatcher, where what is enqueued is well-formed. -/
theorem intact_step {e : DispatcherEvent} (h : r.dispatcher.Intact) (hp : p.Sound)
    (he : ∀ m, e = .act (.enqueue m) → m.WellFormed) (hstep : r.step p e = some s) :
    s.dispatcher.Intact := by
  cases e with
  | act a =>
      simp only [step, Option.ite_none_left_eq_some, Option.map_eq_some_iff] at hstep
      obtain ⟨-, d, hd, rfl⟩ := hstep
      refine h.step hp (fun m hm => ?_) (Dispatcher.Step.of_step hd)
      cases a with
      | enqueue n =>
          cases hm
          exact he m rfl
      | _ => cases hm
  | close =>
      simp only [step, Option.ite_none_left_eq_some, Option.some.injEq] at hstep
      obtain ⟨-, rfl⟩ := hstep
      exact h
  | leave | stop =>
      simp only [step, Option.ite_none_right_eq_some, Option.some.injEq] at hstep
      obtain ⟨-, rfl⟩ := hstep
      exact h

theorem intact_emits (h : r.dispatcher.Intact) (a : DispatchAction) : (r.emits a).Intact := by
  unfold emits
  split
  · split
    · next m d hnext =>
      unfold Dispatcher.sendNext? at hnext
      split at hnext
      · next hemitting =>
        cases hnext
        exact Passage.intact_metric (h.emitting _ hemitting m List.mem_cons_self)
      · cases hnext
    · exact Passage.intact_nothing
  · exact Passage.intact_nothing

end DispatcherRun

def StageBody.Intact : StageBody → Prop
  | .inline p unsent => p.Sound ∧ ∀ m ∈ unsent, m.WellFormed
  | .spread p held run =>
    p.Sound ∧ (∀ m, held = some m → m.WellFormed) ∧ run.dispatcher.Intact

namespace StageTask

structure Intact (t : StageTask) : Prop where
  input : t.input.Intact
  body : t.body.Intact

variable {t t' : StageTask} {passage : Passage}

theorem intact_start {s : ProcessorStage} (channelSize : Nat) (h : s.Intact) :
    (start channelSize s).Intact := by
  cases s with
  | inline p => exact ⟨Link.intact_make channelSize, h, List.forall_mem_nil _⟩
  | spread p d => exact ⟨Link.intact_make channelSize, h.1, fun _ hm => (nomatch hm), h.2⟩

/-- What a task does, and what it passes on. -/
theorem Intact.step {a : StageAction} (h : t.Intact) (hstep : t.step a = some (t', passage)) :
    t'.Intact ∧ passage.Intact := by
  obtain ⟨hinput, hbody⟩ := h
  cases Step.of_step hstep with
  | take hread hqueue hms =>
      obtain ⟨hm, hrest⟩ := hinput.take hqueue
      exact ⟨⟨hrest, hbody.1, hbody.1 _ _ hm hms⟩, Passage.intact_nothing⟩
  | @breakDown input => exact ⟨⟨input.intact_leave, hbody⟩, Passage.intact_finish⟩
  | send =>
      obtain ⟨hp, hunsent⟩ := hbody
      obtain ⟨hm, hrest⟩ := List.forall_mem_cons.1 hunsent
      exact ⟨⟨hinput, hp, hrest⟩, Passage.intact_metric hm⟩
  | @finish input => exact ⟨⟨input.intact_leave, hbody⟩, Passage.intact_finish⟩
  | hold hread hqueue =>
      obtain ⟨hm, hrest⟩ := hinput.take hqueue
      exact ⟨⟨hrest, hbody.1, by rintro n ⟨⟩; exact hm, hbody.2.2⟩, Passage.intact_nothing⟩
  | submit hread hnext =>
      obtain ⟨hp, hheld, hrun⟩ := hbody
      have hkept := DispatcherRun.intact_step hrun hp (by rintro n ⟨⟩; exact hheld _ rfl) hnext
      exact ⟨⟨hinput, hp, fun _ hm => (nomatch hm), hkept⟩, Passage.intact_nothing⟩
  | @act _ _ _ _ _ a hread ha hnext =>
      obtain ⟨hp, hheld, hrun⟩ := hbody
      -- Nothing is enqueued behind the back of the task.
      have hkept := DispatcherRun.intact_step hrun hp (by rintro m ⟨⟩; cases ha) hnext
      exact ⟨⟨hinput, hp, hheld, hkept⟩, DispatcherRun.intact_emits hrun a⟩
  | close hread _ hnext | leave hread hnext =>
      obtain ⟨hp, hheld, hrun⟩ := hbody
      have hkept := DispatcherRun.intact_step hrun hp (by rintro m ⟨⟩) hnext
      exact ⟨⟨hinput, hp, hheld, hkept⟩, Passage.intact_nothing⟩
  | @stop input _ _ _ _ hread hnext =>
      obtain ⟨hp, hheld, hrun⟩ := hbody
      have hkept := DispatcherRun.intact_step hrun hp (by rintro m ⟨⟩) hnext
      exact ⟨⟨input.intact_leave, hp, hheld, hkept⟩, Passage.intact_finish⟩

end StageTask

end MetricAgent
