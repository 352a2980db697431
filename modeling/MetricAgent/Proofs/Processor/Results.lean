import MetricAgent.Proofs.Lists
import MetricAgent.Proofs.Processor.Steps

/-!
# Results on their way

The results of a dispatcher are those that its emitter has begun to send and
those that are pending: made, or still to be made from a metric that waits or
is being transformed. Together they are the results of all metrics that came
in, each once. `Dispatcher.Sound` says this and that what was sent is made of
the results that have been begun, in their order; an ordered emitter begins
with the first and leaves none out.
-/

namespace MetricAgent

/-- The results of metrics, numbered as they came in. -/
def Processor.results (p : Processor) (ms : List Metric) : List JobResult :=
  ms.mapIdx fun i m => ⟨i, p.yields m⟩

namespace Processor

theorem results_concat (p : Processor) (ms : List Metric) (m : Metric) :
    p.results (ms ++ [m]) = p.results ms ++ [⟨ms.length, p.yields m⟩] := by
  simp [results]

theorem seq_results (p : Processor) (ms : List Metric) :
    (p.results ms).map JobResult.seq = List.range ms.length := by
  refine List.ext_getElem (by simp [results]) fun i _ _ => ?_
  simp [results]

theorem metrics_results (p : Processor) (ms : List Metric) :
    (p.results ms).map JobResult.metrics = ms.map p.yields := by
  refine List.ext_getElem (by simp [results]) fun i _ _ => ?_
  simp [results]

theorem flatMap_results (p : Processor) (ms : List Metric) :
    (p.results ms).flatMap JobResult.metrics = ms.flatMap p.yields := by
  rw [List.flatMap_def, metrics_results, ← List.flatMap_def]

end Processor

namespace Dispatcher

/-- The results that the emitter has not begun to send. -/
def pending (p : Processor) (d : Dispatcher) : List JobResult :=
  (d.entering.toList ++ d.jobs ++ d.busy).map (Job.result p) ++ d.holding ++ d.results ++ d.waiting

/-- The results that have been begun and those that are pending are the results
of the metrics `ms`. -/
structure Sound (p : Processor) (ms : List Metric) (begun : List JobResult) (d : Dispatcher) :
    Prop where
  nextSeq : d.nextSeq = ms.length
  results : (begun ++ d.pending p).Perm (p.results ms)
  sent : d.sent ++ d.emitting.getD [] = begun.flatMap JobResult.metrics
  nextOut : begun.length = d.nextOut + d.emitting.toList.length
  inOrder : d.ordered = true → begun.map JobResult.seq = List.range begun.length

theorem sound_make (p : Processor) (ordered : Bool) (workers queueSize : Nat) :
    (make ordered workers queueSize).Sound p [] [] :=
  ⟨rfl, List.Perm.refl _, rfl, rfl, fun _ => rfl⟩

variable {p : Processor} {ms : List Metric} {begun : List JobResult} {d e : Dispatcher}

theorem nextWaiting?_eq_some {r : JobResult} (h : d.nextWaiting? = some r) :
    r ∈ d.waiting ∧ r.seq = d.nextOut :=
  ⟨List.mem_of_find?_eq_some h, by simpa using List.find?_some h⟩

theorem nextWaiting?_eq_none (h : d.nextWaiting? = none) : ∀ r ∈ d.waiting, r.seq ≠ d.nextOut := by
  simpa [nextWaiting?] using h

/-- No two results that are begun or pending have one number. -/
theorem Sound.distinct (hs : d.Sound p ms begun) :
    ((begun ++ d.pending p).map JobResult.seq).Nodup := by
  rw [(hs.results.map JobResult.seq).nodup_iff, p.seq_results]
  exact List.nodup_range

/-- Only one result is taken when the next in order is begun. -/
theorem Sound.perm_waiting (hs : d.Sound p ms begun) {r : JobResult}
    (h : d.nextWaiting? = some r) :
    d.waiting.Perm (r :: d.waiting.filter fun w => w.seq != d.nextOut) := by
  obtain ⟨hmem, hseq⟩ := nextWaiting?_eq_some h
  obtain ⟨front, rest, hsplit⟩ := List.append_of_mem hmem
  have hp : d.waiting.Perm ([r] ++ (front ++ rest)) := by
    rw [hsplit]
    exact List.perm_middle
  have hd : (d.waiting.map JobResult.seq).Nodup := by
    refine hs.distinct.sublist (List.Sublist.map _ ?_)
    exact (List.sublist_append_right _ _).trans (List.sublist_append_right _ _)
  have hf := perm_filter_key JobResult.seq hd hp
  have hsame : (d.waiting.filter fun w => w.seq != d.nextOut) =
      d.waiting.filter fun w => !([r].map JobResult.seq).contains w.seq := by
    refine List.filter_congr fun w _ => ?_
    rw [Bool.eq_iff_iff]
    simp [hseq]
  rw [hsame]
  exact hp.trans (hf.symm.cons r)

/-! ### What each step keeps -/

/-- A result moves on, but is not begun. -/
theorem Sound.of_perm (hs : d.Sound p ms begun) (hp : (e.pending p).Perm (d.pending p))
    (hnext : e.nextSeq = d.nextSeq) (hsent : e.sent = d.sent) (hemitting : e.emitting = d.emitting)
    (hout : e.nextOut = d.nextOut) (hordered : e.ordered = d.ordered) : e.Sound p ms begun where
  nextSeq := hnext.trans hs.nextSeq
  results := (hp.append_left begun).trans hs.results
  sent := by rw [hsent, hemitting, hs.sent]
  nextOut := by rw [hout, hemitting, hs.nextOut]
  inOrder h := hs.inOrder (hordered ▸ h)

/-- A result is begun. In an ordered dispatcher it has to be the next one. -/
theorem Sound.begin (hs : d.Sound p ms begun) {r : JobResult}
    (hp : (d.pending p).Perm (r :: e.pending p)) (hbefore : d.emitting = none)
    (hafter : e.emitting = some r.metrics) (hseq : d.ordered = true → r.seq = d.nextOut)
    (hnext : e.nextSeq = d.nextSeq) (hsent : e.sent = d.sent) (hout : e.nextOut = d.nextOut)
    (hordered : e.ordered = d.ordered) : e.Sound p ms (begun ++ [r]) where
  nextSeq := hnext.trans hs.nextSeq
  results := by
    rw [List.append_assoc]
    exact (hp.symm.append_left begun).trans hs.results
  sent := by
    have h := hs.sent
    rw [hbefore, Option.getD_none, List.append_nil] at h
    simp [hsent, hafter, h]
  nextOut := by
    have h := hs.nextOut
    simp only [hbefore, Option.toList_none, List.length_nil] at h
    simp [hafter, hout, h]
  inOrder h := by
    have hfirst := hs.nextOut
    simp only [hbefore, Option.toList_none, List.length_nil] at hfirst
    rw [hordered] at h
    rw [List.map_append, hs.inOrder h, List.length_append, List.length_singleton, List.range_succ,
      List.map_singleton, hseq h, hfirst, Nat.add_zero]

theorem count_pending [DecidableEq JobResult] (p : Processor) (d : Dispatcher) (x : JobResult) :
    (d.pending p).count x =
      (d.entering.toList.map (Job.result p)).count x + (d.jobs.map (Job.result p)).count x +
        (d.busy.map (Job.result p)).count x + d.holding.count x + d.results.count x +
        d.waiting.count x := by
  simp only [pending, List.map_append, List.count_append]

theorem Sound.enqueue (hs : d.Sound p ms begun) {m : Metric} (h : Step p d (.enqueue m) e) :
    e.Sound p (ms ++ [m]) begun := by
  classical
  obtain ⟨hpermits, hentering⟩ := h
  refine ⟨?_, ?_, hs.sent, hs.nextOut, hs.inOrder⟩
  · rw [List.length_append, List.length_singleton, hs.nextSeq]
  · rw [Processor.results_concat]
    refine List.Perm.trans ?_ (hs.results.append_right _)
    rw [List.append_assoc]
    refine List.Perm.append_left begun (List.perm_iff_count.2 fun x => ?_)
    simp only [count_pending, hentering, Option.toList_some, Option.toList_none, List.map_nil,
      List.map_cons, List.count_append, List.count_nil, Job.result, hs.nextSeq]
    omega

theorem Sound.internal {a : DispatchAction} (hs : d.Sound p ms begun) (h : Step p d a e)
    (ha : a.enqueued? = none) : ∃ after, e.Sound p ms after := by
  classical
  cases h with
  | enqueue hpermits hentering => cases ha
  | queueUp hentering hroom =>
      refine ⟨begun, hs.of_perm (List.perm_iff_count.2 fun x => ?_) rfl rfl rfl rfl rfl⟩
      simp only [count_pending, hentering, Option.toList_some, Option.toList_none, List.map_nil,
        List.map_append, List.map_cons, List.count_append, List.count_nil]
      omega
  | pick hjobs hidle =>
      refine ⟨begun, hs.of_perm (List.perm_iff_count.2 fun x => ?_) rfl rfl rfl rfl rfl⟩
      simp only [count_pending, hjobs, List.map_append, List.map_cons, List.map_nil,
        List.count_append, List.count_cons, List.count_nil]
      omega
  | @finish i job hbusy =>
      refine ⟨begun, hs.of_perm (List.perm_iff_count.2 fun x => ?_) rfl rfl rfl rfl rfl⟩
      have hp := ((perm_cons_eraseIdx hbusy).map (Job.result p)).count_eq x
      simp only [List.map_cons, List.count_cons] at hp
      simp only [count_pending, List.count_append, List.count_cons, List.count_nil, hp]
      omega
  | handOver hholding hroom =>
      refine ⟨begun, hs.of_perm (List.perm_iff_count.2 fun x => ?_) rfl rfl rfl rfl rfl⟩
      have hp := (perm_cons_eraseIdx hholding).count_eq x
      simp only [count_pending, List.count_append, List.count_cons, List.count_nil] at hp ⊢
      omega
  | keep hresults hemitting hnext hordered =>
      refine ⟨begun, hs.of_perm (List.perm_iff_count.2 fun x => ?_) rfl rfl rfl rfl rfl⟩
      simp only [count_pending, hresults, List.count_append, List.count_cons, List.count_nil]
      omega
  | @pass r rest hresults hemitting hnext hordered =>
      refine ⟨begun ++ [r], hs.begin (List.perm_iff_count.2 fun x => ?_) hemitting rfl ?_
        rfl rfl rfl rfl⟩
      · simp only [count_pending, hresults, List.count_cons]
        omega
      · simp [hordered]
  | @start r hemitting hnext =>
      refine ⟨begun ++ [r], hs.begin (List.perm_iff_count.2 fun x => ?_) hemitting rfl
        (fun _ => (nextWaiting?_eq_some hnext).2) rfl rfl rfl rfl⟩
      have hp := (hs.perm_waiting hnext).count_eq x
      simp only [count_pending, List.count_cons] at hp ⊢
      omega
  | send hemitting =>
      have hsent := hs.sent
      have hout := hs.nextOut
      refine ⟨begun, hs.nextSeq, hs.results, ?_, ?_, hs.inOrder⟩
      · simpa [hemitting] using hsent
      · simpa [hemitting] using hout
  | release hemitting =>
      have hsent := hs.sent
      have hout := hs.nextOut
      refine ⟨begun, hs.nextSeq, hs.results, ?_, ?_, hs.inOrder⟩
      · simpa [hemitting] using hsent
      · simpa [hemitting] using hout

/-- A step of any kind keeps a dispatcher sound, with the metric that it brings
in. -/
theorem Sound.step {a : DispatchAction} (hs : d.Sound p ms begun) (h : Step p d a e) :
    ∃ after, e.Sound p (ms ++ a.enqueued?.toList) after := by
  cases ha : a.enqueued? with
  | none =>
      obtain ⟨after, hafter⟩ := hs.internal h ha
      exact ⟨after, by simpa using hafter⟩
  | some m =>
      cases h with
      | enqueue hpermits hentering =>
          cases ha
          exact ⟨begun, hs.enqueue (.enqueue hpermits hentering)⟩
      | _ => cases ha

end Dispatcher

end MetricAgent
