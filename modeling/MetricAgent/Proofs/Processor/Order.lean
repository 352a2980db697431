import MetricAgent.Pipeline.Basic
import MetricAgent.Proofs.Processor.Results

/-!
# What a stopped dispatcher has sent

A run is any interleaving of what callers, workers and emitter do, with the
queue closed at any moment. When the emitter ends, nothing is pending: the
workers that have left took all that was queued, and a result that waits for an
earlier one would have to wait for one that is nowhere. So an ordered dispatcher
has then sent the results of all metrics in the order in which they came in.
-/

namespace MetricAgent

namespace Dispatcher

variable {p : Processor} {ms : List Metric} {begun : List JobResult} {d e : Dispatcher}

/-- Nothing is left that could lead to a result. -/
def IsDrained (d : Dispatcher) : Prop :=
  d.entering = none ∧ d.jobs = [] ∧ d.busy = [] ∧ d.holding = [] ∧ d.results = []

/-- A drained dispatcher that could begin with nothing keeps nothing back. -/
theorem Sound.waiting_eq_nil (hs : d.Sound p ms begun) (hordered : d.ordered = true)
    (hdrained : d.IsDrained) (hemitting : d.emitting = none) (hnext : d.nextWaiting? = none) :
    d.waiting = [] := by
  obtain ⟨hentering, hjobs, hbusy, hholding, hresults⟩ := hdrained
  have hpending : d.pending p = d.waiting := by
    simp [pending, hentering, hjobs, hbusy, hholding, hresults]
  have hout : begun.length = d.nextOut := by simpa [hemitting] using hs.nextOut
  have hp := hs.results.map JobResult.seq
  rw [hpending, List.map_append, hs.inOrder hordered, hout, p.seq_results] at hp
  have hlen := hp.length_eq
  rw [List.length_append, List.length_map, List.length_range, List.length_range] at hlen
  by_contra hne
  have hlt : d.nextOut < ms.length := by
    have := List.length_pos_iff.2 hne
    omega
  -- The number that is next in order is not among those that have been begun.
  have hmem := hp.mem_iff.2 (List.mem_range.2 hlt)
  rw [List.mem_append, List.mem_range] at hmem
  rcases hmem with hbegun | hwaits
  · exact absurd hbegun (Nat.lt_irrefl _)
  · obtain ⟨r, hr, hseq⟩ := List.mem_map.1 hwaits
    exact nextWaiting?_eq_none hnext r hr hseq

theorem Sound.begun_eq (hs : d.Sound p ms begun) (hordered : d.ordered = true)
    (hnone : d.pending p = []) : begun = p.results ms := by
  have hp := hs.results
  rw [hnone, List.append_nil] at hp
  have hbegun : begun.Pairwise fun r s => r.seq < s.seq := by
    rw [← List.pairwise_map (R := (· < ·)), hs.inOrder hordered]
    exact List.pairwise_lt_range
  have hall : (p.results ms).Pairwise fun r s => r.seq < s.seq := by
    rw [← List.pairwise_map (R := (· < ·)), p.seq_results]
    exact List.pairwise_lt_range
  exact hp.eq_of_pairwise (fun r s _ _ hrs hsr => absurd hrs (Nat.lt_asymm hsr)) hbegun hall

/-- An ordered dispatcher that is done with everything has sent everything in
order. -/
theorem Sound.sent_eq (hs : d.Sound p ms begun) (hordered : d.ordered = true)
    (hdrained : d.IsDrained) (hemitting : d.emitting = none) (hnext : d.nextWaiting? = none) :
    d.sent = ms.flatMap p.yields := by
  have hwaiting := hs.waiting_eq_nil hordered hdrained hemitting hnext
  obtain ⟨hentering, hjobs, hbusy, hholding, hresults⟩ := hdrained
  have hnone : d.pending p = [] := by
    simp [pending, hentering, hjobs, hbusy, hholding, hresults, hwaiting]
  have hsent := hs.sent
  rwa [hemitting, Option.getD_none, List.append_nil, hs.begun_eq hordered hnone,
    p.flatMap_results] at hsent

/-! ### When no metric comes in any more -/

theorem Step.entering_eq_none {a : DispatchAction} (h : Step p d a e) (ha : a.enqueued? = none)
    (hentering : d.entering = none) : e.entering = none := by
  cases h with
  | enqueue => cases ha
  | queueUp => rfl
  | _ => exact hentering

theorem Step.jobs_eq_nil {a : DispatchAction} (h : Step p d a e) (hentering : d.entering = none)
    (hjobs : d.jobs = []) : e.jobs = [] := by
  cases h with
  | queueUp h => simp [hentering] at h
  | pick h => simp [hjobs] at h
  | _ => exact hjobs

/-- A worker that has left picks no metric up, as there is none. -/
theorem Step.workers_le {a : DispatchAction} (h : Step p d a e) {left : Nat}
    (hleft : 0 < left → d.jobs = [])
    (hle : d.busy.length + d.holding.length + left ≤ d.workers) :
    e.busy.length + e.holding.length + left ≤ e.workers := by
  cases h with
  | pick h hidle =>
      have hnobody : left = 0 := by
        by_contra hne
        simp [hleft (Nat.pos_of_ne_zero hne)] at h
      simp only [List.length_append, List.length_singleton]
      omega
  | finish h =>
      have := (perm_cons_eraseIdx h).length_eq
      simp only [List.length_append, List.length_cons, List.length_nil] at this ⊢
      omega
  | handOver h =>
      have := (perm_cons_eraseIdx h).length_eq
      simp only [List.length_cons] at this ⊢
      omega
  | _ => exact hle

/-- Where nothing is left, only another metric can make something happen. -/
theorem IsDrained.enqueued {a : DispatchAction} (hdrained : d.IsDrained)
    (hemitting : d.emitting = none) (hnext : d.nextWaiting? = none) (h : Step p d a e) :
    a.enqueued?.isSome = true := by
  obtain ⟨hentering, hjobs, hbusy, hholding, hresults⟩ := hdrained
  cases h with
  | enqueue => rfl
  | queueUp h => simp [hentering] at h
  | pick h => simp [hjobs] at h
  | finish h => simp [hbusy] at h
  | handOver h => simp [hholding] at h
  | keep h => simp [hresults] at h
  | pass h => simp [hresults] at h
  | start _ h => simp [hnext] at h
  | send h => simp [hemitting] at h
  | release h => simp [hemitting] at h

end Dispatcher

namespace DispatcherRun

variable {p : Processor} {ordered : Bool} {r s : DispatcherRun}

structure Sound (p : Processor) (ordered : Bool) (r : DispatcherRun) : Prop where
  ordered : r.dispatcher.ordered = ordered
  results : ∃ begun, r.dispatcher.Sound p r.enqueued begun
  entering : r.closed = true → r.dispatcher.entering = none
  jobs : 0 < r.left → r.closed = true ∧ r.dispatcher.jobs = []
  workers : r.dispatcher.busy.length + r.dispatcher.holding.length + r.left ≤ r.dispatcher.workers
  workers_pos : 0 < r.dispatcher.workers
  stopped : r.stopped = true → r.left = r.dispatcher.workers ∧ r.dispatcher.results = [] ∧
    r.dispatcher.emitting = none ∧ r.dispatcher.nextWaiting? = none

theorem sound_start (p : Processor) (ordered : Bool) (workers queueSize : Nat) :
    (start ordered workers queueSize).Sound p ordered where
  ordered := rfl
  results := ⟨[], Dispatcher.sound_make p ordered workers queueSize⟩
  entering _ := rfl
  jobs h := absurd h (Nat.lt_irrefl 0)
  workers := Nat.zero_le _
  workers_pos := Nat.lt_of_lt_of_le Nat.zero_lt_one (Nat.le_max_right _ _)
  stopped h := absurd h Bool.false_ne_true

/-- When all workers have left, they have taken everything with them. -/
theorem Sound.isDrained (hs : r.Sound p ordered) (hleft : r.left = r.dispatcher.workers)
    (hresults : r.dispatcher.results = []) : r.dispatcher.IsDrained := by
  have hpos := hs.workers_pos
  obtain ⟨hclosed, hjobs⟩ := hs.jobs (by omega)
  have hle := hs.workers
  have hbusy : r.dispatcher.busy = [] := List.length_eq_zero_iff.1 (by omega)
  have hholding : r.dispatcher.holding = [] := List.length_eq_zero_iff.1 (by omega)
  exact ⟨hs.entering hclosed, hjobs, hbusy, hholding, hresults⟩

/-! ### What each event keeps -/

theorem Sound.act (hs : r.Sound p ordered) {a : DispatchAction} (h : r.step p (.act a) = some s) :
    s.Sound p ordered := by
  simp only [step, Option.ite_none_left_eq_some, Option.map_eq_some_iff] at h
  obtain ⟨hopen, d, hd, rfl⟩ := h
  have hstep := Dispatcher.Step.of_step hd
  have hquiet (hclosed : r.closed = true) : a.enqueued? = none := by simpa [hclosed] using hopen
  obtain ⟨hordered, hworkers, -⟩ := hstep.settings
  obtain ⟨begun, hbegun⟩ := hs.results
  refine ⟨hordered.trans hs.ordered, hbegun.step hstep, ?_, ?_, ?_,
    hworkers ▸ hs.workers_pos, ?_⟩
  · exact fun hclosed => hstep.entering_eq_none (hquiet hclosed) (hs.entering hclosed)
  · intro hleft
    obtain ⟨hclosed, hjobs⟩ := hs.jobs hleft
    exact ⟨hclosed, hstep.jobs_eq_nil (hs.entering hclosed) hjobs⟩
  · exact hstep.workers_le (fun hleft => (hs.jobs hleft).2) hs.workers
  · intro hstopped
    obtain ⟨hleft, hresults, hemitting, hnext⟩ := hs.stopped hstopped
    have hsome := (hs.isDrained hleft hresults).enqueued hemitting hnext hstep
    have hclosed := (hs.jobs (hleft ▸ hs.workers_pos)).1
    simp [hquiet hclosed] at hsome

theorem Sound.step (hs : r.Sound p ordered) {event : DispatcherEvent}
    (h : r.step p event = some s) : s.Sound p ordered := by
  cases event with
  | act a => exact hs.act h
  | close =>
      simp only [DispatcherRun.step, Option.ite_none_left_eq_some, Option.some.injEq] at h
      obtain ⟨hentering, rfl⟩ := h
      refine ⟨hs.ordered, hs.results, fun _ => ?_, fun hleft => ⟨rfl, (hs.jobs hleft).2⟩,
        hs.workers, hs.workers_pos, hs.stopped⟩
      simpa using hentering
  | leave =>
      simp only [DispatcherRun.step, Option.ite_none_right_eq_some, Option.some.injEq] at h
      obtain ⟨⟨hclosed, hjobs, hidle⟩, rfl⟩ := h
      refine ⟨hs.ordered, hs.results, hs.entering, fun _ => ⟨hclosed, hjobs⟩, hidle,
        hs.workers_pos, fun hstopped => ?_⟩
      have hleft := (hs.stopped hstopped).1
      omega
  | stop =>
      simp only [DispatcherRun.step, Option.ite_none_right_eq_some, Option.some.injEq] at h
      obtain ⟨hdone, rfl⟩ := h
      exact ⟨hs.ordered, hs.results, hs.entering, hs.jobs, hs.workers, hs.workers_pos,
        fun _ => hdone⟩

/-- What every event keeps that can happen, a run keeps. -/
theorem run_induction {P : DispatcherRun → Prop}
    (hstep : ∀ r s event, P r → r.step p event = some s → P s) (h : P r)
    (events : List DispatcherEvent) : P (r.run p events) := by
  induction events generalizing r with
  | nil => exact h
  | cons event rest ih =>
      refine ih ?_
      unfold DispatcherRun.next
      cases hevent : r.step p event with
      | none => exact h
      | some s => exact hstep r s event h hevent

theorem Sound.run (hs : r.Sound p ordered) (events : List DispatcherEvent) :
    (r.run p events).Sound p ordered :=
  run_induction (fun _ _ _ hs h => hs.step h) hs events

/-! ### Once the dispatcher has stopped -/

/-- However the parties took turns, an ordered dispatcher that has stopped has
sent what the processor yields for the metrics that were enqueued, in that
order, and its emitter kept nothing back. If the processor never breaks down,
this is what a stage without a dispatcher makes of the same metrics. -/
theorem sent_in_order (p : Processor) (workers queueSize : Nat) (events : List DispatcherEvent)
    (hstopped : ((start true workers queueSize).run p events).stopped = true) :
    let r := (start true workers queueSize).run p events
    r.dispatcher.sent = r.enqueued.flatMap p.yields ∧ r.dispatcher.waiting = [] ∧
      (p.IsTotal →
        r.dispatcher.sent = ((ProcessorStage.make p 1 true queueSize).feed r.enqueued).2) := by
  intro r
  have hs : r.Sound p true := (sound_start p true workers queueSize).run events
  obtain ⟨hleft, hresults, hemitting, hnext⟩ := hs.stopped hstopped
  have hdrained := hs.isDrained hleft hresults
  obtain ⟨begun, hbegun⟩ := hs.results
  have hsent := hbegun.sent_eq hs.ordered hdrained hemitting hnext
  exact ⟨hsent, hbegun.waiting_eq_nil hs.ordered hdrained hemitting hnext, fun _ => hsent⟩

def failing : Processor := fun m => if m.name = "cpu" then none else some [m, m]

/-- Two workers, of which the one with the later metric ends first. Where a
result is empty, the emitter has nothing to send. -/
def overtaking : List DispatcherEvent :=
  let reading (name : String) : Metric := ⟨name, [], [("value", .int 1)], .epoch, .untyped⟩
  [.act (.enqueue (reading "cpu")), .act .queueUp, .act (.enqueue (reading "disk")), .act .queueUp,
    .act .pick, .act .pick, .close, .act (.finish 1), .act (.handOver 0), .act .receive,
    .act (.finish 0), .act (.handOver 0), .leave, .leave, .act .receive, .act .start, .act .send,
    .act .send, .act .release, .act .start, .act .send, .act .send, .act .release, .stop]

theorem sent_in_order_overtaking :
    (((start true 2 2).run failing overtaking).stopped = true ∧
        ((start true 2 2).run failing overtaking).dispatcher.sent =
          ((start true 2 2).run failing overtaking).enqueued.flatMap failing.yields) ∧
      ((start true 2 2).run (.copy .none []) overtaking).dispatcher.sent =
        ((ProcessorStage.make (.copy .none []) 1 true 2).feed
          ((start true 2 2).run (.copy .none []) overtaking).enqueued).2 := by
  have hfailing : ((start true 2 2).run failing overtaking).stopped = true := by decide +kernel
  have hcopy : ((start true 2 2).run (.copy .none []) overtaking).stopped = true := by
    decide +kernel
  refine ⟨⟨hfailing, (sent_in_order failing 2 2 overtaking hfailing).1⟩, ?_⟩
  exact (sent_in_order (.copy .none []) 2 2 overtaking hcopy).2.2
    (Processor.isTotal_copy .none [])

end DispatcherRun

end MetricAgent
