import MetricAgent.Proofs.Processor.Progress

/-!
# What an unordered dispatcher has sent

An unordered emitter keeps nothing back, so when it ends, the results of all
metrics have been begun, each once, and each was sent whole before the next one.
They come in the order in which the workers were done, which is some order of
the metrics.

Apart from what is sent, a run lists the jobs whose transformation ends
(`DispatcherRun.transformed`). Together with those that are still to be
transformed, they are the metrics that came in, each under its own number
(`DispatcherRun.Counted`).
-/

namespace MetricAgent

def Job.numbered (ms : List Metric) : List Job := ms.mapIdx fun i m => ⟨i, m⟩

theorem Job.numbered_concat (ms : List Metric) (m : Metric) :
    Job.numbered (ms ++ [m]) = Job.numbered ms ++ [⟨ms.length, m⟩] := by
  simp [Job.numbered]

/-- The job whose transformation an action ends. -/
def DispatchAction.transformed? (d : Dispatcher) : DispatchAction → Option Job
  | .finish i => d.busy[i]?
  | _ => none

namespace Dispatcher

variable {p : Processor} {ms : List Metric} {begun : List JobResult} {d e : Dispatcher}

def untransformed (d : Dispatcher) : List Job := d.entering.toList ++ d.jobs ++ d.busy

theorem count_untransformed [DecidableEq Job] (d : Dispatcher) (x : Job) :
    d.untransformed.count x = d.entering.toList.count x + d.jobs.count x + d.busy.count x := by
  simp only [untransformed, List.count_append]

/-- An action ends the transformation of a job that is being transformed, and
brings in one with the next number. -/
theorem Step.untransformed {a : DispatchAction} (h : Step p d a e) :
    ((a.transformed? d).toList ++ e.untransformed).Perm
      (d.untransformed ++ a.enqueued?.toList.map fun m => ⟨d.nextSeq, m⟩) := by
  classical
  refine List.perm_iff_count.2 fun x => ?_
  simp only [List.count_append, count_untransformed]
  cases h with
  | enqueue hpermits hentering =>
      simp only [hentering, DispatchAction.transformed?, DispatchAction.enqueued?,
        Option.toList_some, Option.toList_none, List.map_cons, List.map_nil, List.count_nil]
      omega
  | queueUp hentering hroom =>
      simp only [hentering, DispatchAction.transformed?, DispatchAction.enqueued?,
        Option.toList_some, Option.toList_none, List.map_nil, List.count_append, List.count_nil]
      omega
  | pick hjobs hidle =>
      simp only [hjobs, DispatchAction.transformed?, DispatchAction.enqueued?,
        Option.toList_none, List.map_nil, List.count_append, List.count_cons, List.count_nil]
      omega
  | finish hbusy =>
      have hp := (perm_cons_eraseIdx hbusy).count_eq x
      simp only [hbusy, DispatchAction.transformed?, DispatchAction.enqueued?, Option.toList_some,
        Option.toList_none, List.map_nil, List.count_cons, List.count_nil] at hp ⊢
      omega
  | _ =>
      simp only [DispatchAction.transformed?, DispatchAction.enqueued?, Option.toList_none,
        List.map_nil, List.count_nil]
      omega

/-- Where nothing is pending, what was begun was begun in an order of the metrics. -/
theorem Sound.exists_order (hs : d.Sound p ms begun) (hnone : d.pending p = []) :
    ∃ order : List Metric, order.Perm ms ∧ begun.map JobResult.metrics = order.map p.yields := by
  have hp := hs.results.map JobResult.metrics
  rw [hnone, List.append_nil, p.metrics_results] at hp
  exact exists_perm_of_perm_map hp

end Dispatcher

namespace DispatcherRun

variable {p : Processor} {ordered : Bool} {r s : DispatcherRun} {done : List Job}

def transformed? (r : DispatcherRun) : DispatcherEvent → Option Job
  | .act a => a.transformed? r.dispatcher
  | _ => none

/-- The jobs whose transformation ends in a run, in that order. -/
def transformed (p : Processor) (r : DispatcherRun) : List DispatcherEvent → List Job
  | [] => []
  | event :: rest => (r.transformed? event).toList ++ transformed p (r.next p event) rest

/-- The jobs `done` and those that are still to be transformed are all that came
in, each once. -/
def Counted (r : DispatcherRun) (done : List Job) : Prop :=
  (done ++ r.dispatcher.untransformed).Perm (Job.numbered r.enqueued)

theorem counted_start (ordered : Bool) (workers queueSize : Nat) :
    (start ordered workers queueSize).Counted [] :=
  List.Perm.refl _

theorem Counted.step (hc : r.Counted done) (hs : r.Sound p ordered) {event : DispatcherEvent}
    (h : r.step p event = some s) : s.Counted (done ++ (r.transformed? event).toList) := by
  unfold Counted at hc ⊢
  rcases dispatcher_step h with ⟨hother, hsame, henqueued⟩ | ⟨a, rfl, hstep, henqueued⟩
  · have hnone : r.transformed? event = none := by
      cases event with
      | act a => exact absurd rfl (hother a)
      | _ => rfl
    rwa [hnone, hsame, henqueued, Option.toList_none, List.append_nil]
  · obtain ⟨begun, hbegun⟩ := hs.results
    have hmoved := hstep.untransformed.append_left done
    rw [← List.append_assoc, ← List.append_assoc] at hmoved
    refine hmoved.trans ((hc.append_right _).trans ?_)
    rw [henqueued]
    -- A metric that comes in gets the number of those that came before it.
    cases a.enqueued? with
    | none => simp
    | some m => simp [Job.numbered_concat, hbegun.nextSeq]

/-- An event that cannot happen ends no transformation. -/
theorem transformed?_eq_none {event : DispatcherEvent} (h : r.step p event = none) :
    r.transformed? event = none := by
  cases event with
  | act a =>
      cases a with
      | finish i =>
          cases hbusy : r.dispatcher.busy[i]? with
          | none => exact hbusy
          | some job =>
              simp [DispatcherRun.step, DispatchAction.enqueued?, Dispatcher.step, hbusy] at h
      | _ => rfl
  | _ => rfl

theorem Counted.next (hc : r.Counted done) (hs : r.Sound p ordered) (event : DispatcherEvent) :
    (r.next p event).Counted (done ++ (r.transformed? event).toList) := by
  unfold DispatcherRun.next
  cases h : r.step p event with
  | none => simpa [transformed?_eq_none h] using hc
  | some s => exact hc.step hs h

theorem Counted.run (hc : r.Counted done) (hs : r.Sound p ordered)
    (events : List DispatcherEvent) : (r.run p events).Counted (done ++ r.transformed p events) := by
  induction events generalizing r done with
  | nil => simpa [transformed, DispatcherRun.run] using hc
  | cons event rest ih =>
      have hrest := ih (hc.next hs event) (hs.run [event])
      rwa [List.append_assoc] at hrest

/-- However the parties took turns, and whatever was still queued when the queue
was closed, an unordered dispatcher that has stopped has sent what the processor
yields for the metrics that were enqueued, metric by metric in some order of
them, and each of them has been transformed once. -/
theorem sent_in_some_order (p : Processor) (workers queueSize : Nat)
    (events : List DispatcherEvent)
    (hstopped : ((start false workers queueSize).run p events).stopped = true) :
    let r := (start false workers queueSize).run p events
    (∃ order : List Metric, order.Perm r.enqueued ∧ r.dispatcher.sent = order.flatMap p.yields) ∧
      ((start false workers queueSize).transformed p events).Perm (Job.numbered r.enqueued) := by
  intro r
  have hstart : (start false workers queueSize).Sound p false :=
    sound_start p false workers queueSize
  have hs : r.Sound p false := hstart.run events
  have hp : r.Permitted := (permitted_start false workers queueSize).run events
  have hc := (counted_start false workers queueSize).run hstart events
  obtain ⟨hleft, hresults, hemitting, -⟩ := hs.stopped hstopped
  have hwaiting := hp.keepsIfOrdered hs.ordered
  obtain ⟨hentering, hjobs, hbusy, hholding, -⟩ := hs.isDrained hleft hresults
  refine ⟨?_, ?_⟩
  · obtain ⟨begun, hbegun⟩ := hs.results
    have hnone : r.dispatcher.pending p = [] := by
      simp [Dispatcher.pending, hentering, hjobs, hbusy, hholding, hresults, hwaiting]
    obtain ⟨order, hperm, horder⟩ := hbegun.exists_order hnone
    refine ⟨order, hperm, ?_⟩
    have hsent := hbegun.sent
    rwa [hemitting, Option.getD_none, List.append_nil, List.flatMap_def, horder,
      ← List.flatMap_def] at hsent
  · have huntransformed : r.dispatcher.untransformed = [] := by
      simp [Dispatcher.untransformed, hentering, hjobs, hbusy]
    unfold Counted at hc
    rwa [List.nil_append, huntransformed, List.append_nil] at hc

/-- Two workers and three metrics. The queue is closed while one metric waits in
it, and the metric that came first breaks its transformation after a later one
has been sent. -/
def racing : List DispatcherEvent :=
  let reading (name : String) : Metric := ⟨name, [], [("value", .int 1)], .epoch, .untyped⟩
  [.act (.enqueue (reading "cpu")), .act .queueUp, .act (.enqueue (reading "disk")), .act .queueUp,
    .act (.enqueue (reading "swap")), .act .queueUp, .act .pick, .act .pick, .close,
    .act (.finish 1), .act (.handOver 0), .act .receive, .act .pick, .act .send, .act .send,
    .act .release, .act (.finish 1), .act (.handOver 0), .leave, .act (.finish 0),
    .act (.handOver 0), .leave, .act .receive, .act .send, .act .send, .act .release,
    .act .receive, .act .release, .stop]

theorem sent_in_some_order_racing :
    ((start false 2 3).run failing racing).stopped = true ∧
      (∃ order : List Metric, order.Perm ((start false 2 3).run failing racing).enqueued ∧
        ((start false 2 3).run failing racing).dispatcher.sent = order.flatMap failing.yields) ∧
      ((start false 2 3).transformed failing racing).Perm
        (Job.numbered ((start false 2 3).run failing racing).enqueued) := by
  have hstopped : ((start false 2 3).run failing racing).stopped = true := by decide +kernel
  exact ⟨hstopped, sent_in_some_order failing 2 3 racing hstopped⟩

end DispatcherRun

end MetricAgent
