import MetricAgent.Processor.Stopping

/-!
# The steps of a dispatcher

`Dispatcher.Step` says of each action when it can happen and what it does, one
rule for each. It is `Dispatcher.step` read backwards (`step_eq_some_iff`), so
what all steps keep is shown by cases on the rules. There are two rules for a
result that is received, as an ordered emitter keeps it back.
-/

namespace MetricAgent

def Job.result (p : Processor) (job : Job) : JobResult := ⟨job.seq, p.yields job.metric⟩

namespace Dispatcher

/-- One action, what it needs and what it leads to. -/
inductive Step (p : Processor) (d : Dispatcher) : DispatchAction → Dispatcher → Prop where
  | enqueue {m : Metric} (permits : 0 < d.permits) (entering : d.entering = none) :
      Step p d (.enqueue m)
        { d with
          permits := d.permits - 1
          nextSeq := d.nextSeq + 1
          entering := some ⟨d.nextSeq, m⟩ }
  | queueUp {job : Job} (entering : d.entering = some job) (room : d.jobs.length < d.queueSize) :
      Step p d .queueUp { d with entering := none, jobs := d.jobs ++ [job] }
  | pick {job : Job} {rest : List Job} (jobs : d.jobs = job :: rest)
      (idle : d.busy.length + d.holding.length < d.workers) :
      Step p d .pick { d with jobs := rest, busy := d.busy ++ [job] }
  | finish {i : Nat} {job : Job} (busy : d.busy[i]? = some job) :
      Step p d (.finish i)
        { d with busy := d.busy.eraseIdx i, holding := d.holding ++ [job.result p] }
  | handOver {i : Nat} {r : JobResult} (holding : d.holding[i]? = some r)
      (room : d.results.length < d.queueSize) :
      Step p d (.handOver i)
        { d with holding := d.holding.eraseIdx i, results := d.results ++ [r] }
  | keep {r : JobResult} {rest : List JobResult} (results : d.results = r :: rest)
      (emitting : d.emitting = none) (next : d.nextWaiting? = none) (ordered : d.ordered = true) :
      Step p d .receive { d with results := rest, waiting := d.waiting ++ [r] }
  | pass {r : JobResult} {rest : List JobResult} (results : d.results = r :: rest)
      (emitting : d.emitting = none) (next : d.nextWaiting? = none) (ordered : d.ordered = false) :
      Step p d .receive { d with results := rest, emitting := some r.metrics }
  | start {r : JobResult} (emitting : d.emitting = none) (next : d.nextWaiting? = some r) :
      Step p d .start
        { d with
          waiting := d.waiting.filter fun w => w.seq != d.nextOut
          emitting := some r.metrics }
  | send {m : Metric} {rest : List Metric} (emitting : d.emitting = some (m :: rest)) :
      Step p d .send { d with emitting := some rest, sent := d.sent ++ [m] }
  | release (emitting : d.emitting = some []) :
      Step p d .release
        { d with emitting := none, permits := d.permits + 1, nextOut := d.nextOut + 1 }

variable {p : Processor} {d e : Dispatcher} {a : DispatchAction}

theorem Step.of_step (h : d.step p a = some e) : Step p d a e := by
  cases a with
  | enqueue m =>
      simp only [step, Option.ite_none_left_eq_some, not_or, Option.some.injEq] at h
      obtain ⟨⟨hpermits, hentering⟩, rfl⟩ := h
      exact .enqueue (Nat.pos_of_ne_zero hpermits) (by simpa using hentering)
  | queueUp =>
      simp only [step] at h
      split at h
      · next job hentering =>
        simp only [Option.ite_none_right_eq_some, Option.some.injEq] at h
        obtain ⟨hroom, rfl⟩ := h
        exact .queueUp hentering hroom
      · cases h
  | pick =>
      simp only [step] at h
      split at h
      · next job rest hjobs =>
        simp only [Option.ite_none_right_eq_some, Option.some.injEq] at h
        obtain ⟨hidle, rfl⟩ := h
        exact .pick hjobs hidle
      · cases h
  | finish i =>
      simp only [step] at h
      split at h
      · next job hbusy =>
        cases h
        exact .finish hbusy
      · cases h
  | handOver i =>
      simp only [step] at h
      split at h
      · next r hholding =>
        simp only [Option.ite_none_right_eq_some, Option.some.injEq] at h
        obtain ⟨hroom, rfl⟩ := h
        exact .handOver hholding hroom
      · cases h
  | receive =>
      simp only [step] at h
      split at h
      · next r rest hresults hemitting hnext =>
        split at h
        · next hordered =>
          cases h
          exact .keep hresults hemitting hnext hordered
        · next hordered =>
          cases h
          exact .pass hresults hemitting hnext (by simpa using hordered)
      · cases h
  | start =>
      simp only [step] at h
      split at h
      · next r hemitting hnext =>
        cases h
        exact .start hemitting hnext
      · cases h
  | send =>
      simp only [step, sendNext?] at h
      split at h
      · next m rest hemitting =>
        cases h
        exact .send hemitting
      · cases h
  | release =>
      simp only [step] at h
      split at h
      · next hemitting =>
        cases h
        exact .release hemitting
      · cases h

theorem Step.step_eq (h : Step p d a e) : d.step p a = some e := by
  cases h with
  | enqueue hpermits hentering => simp [step, hentering, Nat.ne_of_gt hpermits]
  | queueUp hentering hroom => simp [step, hentering, hroom]
  | pick hjobs hidle => simp [step, hjobs, hidle]
  | finish hbusy => simp [step, hbusy, Job.result]
  | handOver hholding hroom => simp [step, hholding, hroom]
  | keep hresults hemitting hnext hordered => simp [step, hresults, hemitting, hnext, hordered]
  | pass hresults hemitting hnext hordered => simp [step, hresults, hemitting, hnext, hordered]
  | start hemitting hnext => simp [step, hemitting, hnext]
  | send hemitting => simp [step, sendNext?, hemitting]
  | release hemitting => simp [step, hemitting]

theorem step_eq_some_iff : d.step p a = some e ↔ Step p d a e := ⟨Step.of_step, Step.step_eq⟩

/-- No action changes how a dispatcher was set up. -/
theorem Step.settings (h : Step p d a e) :
    e.ordered = d.ordered ∧ e.workers = d.workers ∧ e.queueSize = d.queueSize := by
  cases h <;> exact ⟨rfl, rfl, rfl⟩

end Dispatcher

end MetricAgent
