import MetricAgent.Proofs.Processor.Permits

/-!
# Progress of a dispatcher

As long as a metric is inside, one of the parties can act without another
metric: `Dispatcher.nextAction?` names an action, and the permits see to it that
there is a place for whatever has to be handed on. Where it names none, only
results could be left that wait for earlier ones, and there are none of these
(`Dispatcher.Sound.waiting_eq_nil`).

Every such action brings the metrics closer to the end (`Dispatcher.Step.work_lt`).
So a dispatcher that is given no further metric sends all that it has, and any
run can be brought to a stop.
-/

namespace MetricAgent

namespace Dispatcher

section Total

variable {α : Type} (value : α → Nat)

@[simp] theorem total_nil : total value [] = 0 := rfl

@[simp] theorem total_cons (x : α) (xs : List α) :
    total value (x :: xs) = value x + total value xs :=
  rfl

@[simp] theorem total_append (xs ys : List α) :
    total value (xs ++ ys) = total value xs + total value ys := by
  induction xs with
  | nil => simp
  | cons x xs ih => simp [ih, Nat.add_assoc]

theorem total_perm {xs ys : List α} (h : xs.Perm ys) : total value xs = total value ys := by
  induction h with
  | nil => rfl
  | cons x _ ih => simp [ih]
  | swap x y xs =>
      simp only [total_cons]
      omega
  | trans _ _ ih ih' => exact ih.trans ih'

theorem total_filter_add_le {xs : List α} {x : α} (hx : x ∈ xs) (keep : α → Bool)
    (hout : keep x = false) : total value (xs.filter keep) + value x ≤ total value xs := by
  have hp := total_perm value (List.filter_append_perm keep xs)
  have hmem : x ∈ xs.filter fun y => !keep y := List.mem_filter.2 ⟨hx, by rw [hout]; rfl⟩
  obtain ⟨before, after, hsplit⟩ := List.append_of_mem hmem
  rw [total_append, hsplit, total_append, total_cons] at hp
  omega

end Total

variable {p : Processor} {ms : List Metric} {d e : Dispatcher} {a : DispatchAction}

/-- Without another metric, every action leaves less to do. -/
theorem Step.work_lt (h : Step p d a e) (ha : a.enqueued? = none) : e.work p < d.work p := by
  cases h with
  | enqueue => cases ha
  | queueUp hentering =>
      simp only [work, hentering, Option.toList_some, Option.toList_none, total_append, total_cons,
        total_nil]
      omega
  | pick hjobs =>
      simp only [work, hjobs, total_append, total_cons, total_nil]
      omega
  | finish hbusy =>
      have htotal := total_perm (fun j : Job => (p.yields j.metric).length + 5)
        (perm_cons_eraseIdx hbusy)
      simp only [work, Job.result, total_append, total_cons, total_nil] at htotal ⊢
      omega
  | handOver hholding =>
      have htotal := total_perm (fun r : JobResult => r.metrics.length + 4)
        (perm_cons_eraseIdx hholding)
      simp only [work, total_append, total_cons, total_nil] at htotal ⊢
      omega
  | keep hresults =>
      simp only [work, hresults, total_append, total_cons, total_nil]
      omega
  | pass hresults hemitting =>
      simp only [work, hresults, hemitting, Option.toList_some, Option.toList_none, total_cons,
        total_nil]
      omega
  | start hemitting hnext =>
      obtain ⟨hmem, hseq⟩ := nextWaiting?_eq_some hnext
      have htotal := total_filter_add_le (fun r : JobResult => r.metrics.length + 2) hmem
        (fun w => w.seq != d.nextOut) (by simp [hseq])
      simp only [work, hemitting, Option.toList_some, Option.toList_none, total_cons, total_nil]
      omega
  | send hemitting =>
      simp only [work, hemitting, Option.toList_some, total_cons, total_nil, List.length_cons]
      omega
  | release hemitting =>
      simp only [work, hemitting, Option.toList_some, Option.toList_none, total_cons, total_nil]
      omega

/-! ### What can happen next -/

theorem nextAction?_eq_none (h : d.nextAction? = none) :
    d.IsDrained ∧ d.emitting = none ∧ d.nextWaiting? = none := by
  unfold nextAction? at h
  split at h
  · cases h
  · cases h
  · next hemitting =>
    split_ifs at h with hnext hresults hholding hbusy hjobs hentering
    simp only [Bool.not_eq_true, Bool.not_eq_false', List.isEmpty_iff, Option.isSome_eq_false_iff,
      Option.isNone_iff_eq_none] at hnext hresults hholding hbusy hjobs hentering
    exact ⟨⟨hentering, hjobs, hbusy, hholding, hresults⟩, hemitting, hnext⟩

theorem enqueued?_of_nextAction? (h : d.nextAction? = some a) : a.enqueued? = none := by
  unfold nextAction? at h
  split at h
  · cases h
    rfl
  · cases h
    rfl
  · split_ifs at h <;> cases h <;> rfl

theorem exists_step_of_nextAction? (hle : d.inside ≤ d.queueSize) (hworkers : 0 < d.workers)
    (h : d.nextAction? = some a) : ∃ e, Step p d a e := by
  unfold nextAction? at h
  split at h
  · next hemitting =>
    cases h
    exact ⟨_, .release hemitting⟩
  · next m rest hemitting =>
    cases h
    exact ⟨_, .send hemitting⟩
  · next hemitting =>
    split_ifs at h with hnext hresults hholding hbusy hjobs hentering <;> cases h
    · obtain ⟨r, hr⟩ := Option.isSome_iff_exists.1 hnext
      exact ⟨_, .start hemitting hr⟩
    · have hnone : d.nextWaiting? = none := by simpa using hnext
      obtain ⟨r, rest, hr⟩ := List.exists_cons_of_ne_nil (by simpa using hresults)
      cases hordered : d.ordered with
      | true => exact ⟨_, .keep hr hemitting hnone hordered⟩
      | false => exact ⟨_, .pass hr hemitting hnone hordered⟩
    · exact exists_handOver hle (List.length_pos_iff.2 (by simpa using hholding))
    · obtain ⟨job, rest, hjob⟩ := List.exists_cons_of_ne_nil (by simpa using hbusy)
      exact ⟨_, .finish (by rw [hjob]; rfl)⟩
    · -- Nobody is transforming or holding anything, so a worker is idle.
      obtain ⟨job, rest, hjob⟩ := List.exists_cons_of_ne_nil (by simpa using hjobs)
      have hidle : d.busy.length + d.holding.length < d.workers := by
        have hbusy : d.busy = [] := by simpa using hbusy
        have hholding : d.holding = [] := by simpa using hholding
        rwa [hbusy, hholding]
      exact ⟨_, .pick hjob hidle⟩
    · obtain ⟨job, hjob⟩ := Option.isSome_iff_exists.1 hentering
      exact exists_queueUp hle hjob

/-- What holds of a dispatcher to which the metrics `ms` were given. -/
structure Alive (p : Processor) (ms : List Metric) (d : Dispatcher) : Prop where
  results : ∃ begun, d.Sound p ms begun
  balanced : d.Balanced
  keepsIfOrdered : d.KeepsIfOrdered
  workers_pos : 0 < d.workers

theorem Alive.inside_le (ha : d.Alive p ms) : d.inside ≤ d.queueSize := by
  obtain ⟨begun, hs⟩ := ha.results
  have := hs.permits_add_inside ha.balanced
  omega

theorem Alive.step (hd : d.Alive p ms) (h : Step p d a e) :
    e.Alive p (ms ++ a.enqueued?.toList) := by
  obtain ⟨begun, hs⟩ := hd.results
  exact ⟨hs.step h, h.balanced hd.balanced, h.keepsIfOrdered hd.keepsIfOrdered,
    h.settings.2.1 ▸ hd.workers_pos⟩

/-- Where nothing can happen, nothing is inside. -/
theorem Alive.inside_eq_zero (hd : d.Alive p ms) (h : d.nextAction? = none) : d.inside = 0 := by
  obtain ⟨hdrained, hemitting, hnext⟩ := nextAction?_eq_none h
  have hwaiting : d.waiting = [] := by
    obtain ⟨begun, hs⟩ := hd.results
    cases hordered : d.ordered with
    | true => exact hs.waiting_eq_nil hordered hdrained hemitting hnext
    | false => exact hd.keepsIfOrdered hordered
  obtain ⟨hentering, hjobs, hbusy, hholding, hresults⟩ := hdrained
  simp [inside, hentering, hjobs, hbusy, hholding, hresults, hwaiting, hemitting]

/-- While a metric is inside, something can happen without another one. -/
theorem Alive.exists_step (hd : d.Alive p ms) (h : 0 < d.inside) :
    ∃ a e, a.enqueued? = none ∧ Step p d a e := by
  cases hnext : d.nextAction? with
  | none => exact absurd (hd.inside_eq_zero hnext) (Nat.ne_of_gt h)
  | some a =>
      obtain ⟨e, he⟩ := exists_step_of_nextAction? hd.inside_le hd.workers_pos hnext
      exact ⟨a, e, enqueued?_of_nextAction? hnext, he⟩

theorem Alive.settleWithin {fuel : Nat} (hd : d.Alive p ms) (hfuel : d.work p ≤ fuel) :
    (settleWithin p fuel d).Alive p ms ∧ (settleWithin p fuel d).nextAction? = none := by
  induction fuel generalizing d with
  | zero =>
      refine ⟨hd, ?_⟩
      cases hnext : d.nextAction? with
      | none => exact hnext
      | some a =>
          obtain ⟨e, he⟩ := exists_step_of_nextAction? (p := p) hd.inside_le hd.workers_pos hnext
          have := he.work_lt (enqueued?_of_nextAction? hnext)
          omega
  | succ fuel ih =>
      unfold Dispatcher.settleWithin
      cases hnext : d.nextAction? with
      | none => exact ⟨hd, hnext⟩
      | some a =>
          obtain ⟨e, he⟩ := exists_step_of_nextAction? (p := p) hd.inside_le hd.workers_pos hnext
          have hnone := enqueued?_of_nextAction? hnext
          have hwork := he.work_lt hnone
          have halive : e.Alive p ms := by simpa [hnone] using hd.step he
          simp only [Option.bind_some, he.step_eq]
          exact ih halive (by omega)

/-- A dispatcher that settles sends all that is inside. -/
theorem Alive.settle (hd : d.Alive p ms) :
    (d.settle p).Alive p ms ∧ (d.settle p).nextAction? = none :=
  hd.settleWithin (Nat.le_refl _)

end Dispatcher

def DispatcherEvent.enqueued? : DispatcherEvent → Option Metric
  | .act a => a.enqueued?
  | _ => none

namespace DispatcherRun

variable {p : Processor} {ordered : Bool} {r : DispatcherRun}

theorem Sound.alive (hs : r.Sound p ordered) (hp : r.Permitted) :
    r.dispatcher.Alive p r.enqueued :=
  ⟨hs.results, hp.balanced, hp.keepsIfOrdered, hs.workers_pos⟩

theorem isSome_step_act {a : DispatchAction} {e : Dispatcher}
    (h : Dispatcher.Step p r.dispatcher a e) (ha : a.enqueued? = none) :
    (r.step p (.act a)).isSome = true := by
  simp [step, ha, h.step_eq]

/-- However the parties took turns, the metrics that are not sent yet are inside
and have a permit each, so there are never more of them than permits. A metric
that comes in and a worker that hands a result over find a place at once, and
the emitter keeps no more results back. While a metric is not sent yet, one of
the parties can act without another metric coming in. -/
theorem bounded_and_never_stuck (p : Processor) (ordered : Bool) (workers queueSize : Nat)
    (events : List DispatcherEvent) :
    let r := (start ordered workers queueSize).run p events
    let d := r.dispatcher
    (r.enqueued.length = d.nextOut + d.inside ∧ d.permits + d.inside = max queueSize 1 ∧
        d.inside ≤ max queueSize 1) ∧
      ((d.entering.isSome → (r.step p (.act .queueUp)).isSome) ∧
        ∀ i < d.holding.length, (r.step p (.act (.handOver i))).isSome) ∧
      d.waiting.length ≤ max queueSize 1 ∧
      (d.nextOut < r.enqueued.length → ∃ a, a.enqueued? = none ∧ (r.step p (.act a)).isSome) := by
  intro r d
  have hs : r.Sound p ordered := (sound_start p ordered workers queueSize).run events
  have hp : r.Permitted := (permitted_start ordered workers queueSize).run events
  have hsize : d.queueSize = max queueSize 1 := queueSize_run _ events
  have hd : d.Alive p r.enqueued := hs.alive hp
  obtain ⟨begun, hbegun⟩ := hs.results
  have hlength : r.enqueued.length = d.nextOut + d.inside := hbegun.length_eq
  have hle := hd.inside_le
  refine ⟨⟨hlength, hsize ▸ hbegun.permits_add_inside hp.balanced, hsize ▸ hle⟩, ⟨?_, ?_⟩, ?_, ?_⟩
  · intro hentering
    obtain ⟨job, hjob⟩ := Option.isSome_iff_exists.1 hentering
    obtain ⟨e, he⟩ := Dispatcher.exists_queueUp hle hjob
    exact isSome_step_act he rfl
  · intro i hi
    obtain ⟨e, he⟩ := Dispatcher.exists_handOver hle hi
    exact isSome_step_act he rfl
  · rw [← hsize]
    refine Nat.le_trans ?_ hle
    unfold Dispatcher.inside
    omega
  · intro hlt
    obtain ⟨a, e, ha, he⟩ := hd.exists_step (by omega)
    exact ⟨a, ha, isSome_step_act he ha⟩

/-! ### Coming to a stop -/

theorem run_append (p : Processor) (r : DispatcherRun) (es fs : List DispatcherEvent) :
    r.run p (es ++ fs) = (r.run p es).run p fs :=
  List.foldl_append

/-- What a dispatcher does to settle can happen in a run. -/
theorem exists_run_settleWithin (p : Processor) (fuel : Nat) (r : DispatcherRun) :
    ∃ events, (∀ event ∈ events, event.enqueued? = none) ∧
      r.run p events = { r with dispatcher := r.dispatcher.settleWithin p fuel } := by
  induction fuel generalizing r with
  | zero => exact ⟨[], List.forall_mem_nil _, rfl⟩
  | succ fuel ih =>
      unfold Dispatcher.settleWithin
      cases h : r.dispatcher.nextAction?.bind (r.dispatcher.step p) with
      | none => exact ⟨[], List.forall_mem_nil _, rfl⟩
      | some d =>
          obtain ⟨a, hnext, hstep⟩ := Option.bind_eq_some_iff.1 h
          have ha := Dispatcher.enqueued?_of_nextAction? hnext
          have hact : r.next p (.act a) = { r with dispatcher := d } := by
            simp [DispatcherRun.next, step, ha, hstep]
          obtain ⟨events, hevents, hrun⟩ := ih (r.next p (.act a))
          refine ⟨.act a :: events, fun event hevent => ?_, ?_⟩
          · rcases List.mem_cons.1 hevent with rfl | hevent
            · exact ha
            · exact hevents event hevent
          · rw [hact] at hrun
            rw [← hrun, ← hact]
            rfl

theorem next_close (h : r.dispatcher.entering = none) :
    r.next p .close = { r with closed := true } := by
  simp [DispatcherRun.next, step, h]

theorem next_leave (hclosed : r.closed = true) (hdrained : r.dispatcher.IsDrained)
    (hlt : r.left < r.dispatcher.workers) : r.next p .leave = { r with left := r.left + 1 } := by
  obtain ⟨-, hjobs, hbusy, hholding, -⟩ := hdrained
  simp [DispatcherRun.next, step, hclosed, hjobs, hbusy, hholding, hlt]

theorem next_stop (hleft : r.left = r.dispatcher.workers) (hdrained : r.dispatcher.IsDrained)
    (hemitting : r.dispatcher.emitting = none) (hnext : r.dispatcher.nextWaiting? = none) :
    r.next p .stop = { r with stopped := true } := by
  obtain ⟨-, -, -, -, hresults⟩ := hdrained
  simp [DispatcherRun.next, step, hleft, hresults, hemitting, hnext]

/-- Idle workers leave one after the other once the queue is closed. -/
theorem run_leave {n : Nat} (hclosed : r.closed = true) (hdrained : r.dispatcher.IsDrained)
    (hn : r.left + n ≤ r.dispatcher.workers) :
    r.run p (List.replicate n .leave) = { r with left := r.left + n } := by
  induction n generalizing r with
  | zero => rfl
  | succ n ih =>
      have hleave : r.next p .leave = { r with left := r.left + 1 } :=
        next_leave hclosed hdrained (by omega)
      have hrest := ih (r := { r with left := r.left + 1 }) hclosed hdrained (by dsimp only; omega)
      change (r.next p .leave).run p (List.replicate n .leave) = _
      rw [hleave, hrest, Nat.add_assoc, Nat.add_comm 1 n]

/-- A run in which nothing can happen to its dispatcher is closed and stopped. -/
theorem exists_stop_of_settled (hs : r.Sound p ordered) (h : r.dispatcher.nextAction? = none) :
    ∃ events, (∀ event ∈ events, event.enqueued? = none) ∧ (r.run p events).stopped = true := by
  obtain ⟨hdrained, hemitting, hnext⟩ := Dispatcher.nextAction?_eq_none h
  let rest := r.dispatcher.workers - r.left
  have hle : r.left + rest = r.dispatcher.workers := by
    have := hs.workers
    omega
  have hclose : r.next p .close = { r with closed := true } := next_close hdrained.1
  have hleave := run_leave (p := p) (r := { r with closed := true }) (n := rest) rfl hdrained
    (Nat.le_of_eq hle)
  refine ⟨.close :: (List.replicate rest .leave ++ [.stop]), ?_, ?_⟩
  · simp only [List.mem_cons, List.mem_append, List.mem_replicate, List.not_mem_nil, or_false]
    rintro event (rfl | ⟨-, rfl⟩ | rfl) <;> rfl
  · change ((r.next p .close).run p (List.replicate rest .leave ++ [.stop])).stopped = true
    rw [run_append, hclose, hleave]
    exact congrArg stopped (next_stop (r := { r with closed := true, left := r.left + rest }) hle
      hdrained hemitting hnext)

/-- Any run can be brought to a stop without another metric. -/
theorem exists_stop (p : Processor) (ordered : Bool) (workers queueSize : Nat)
    (events : List DispatcherEvent) :
    ∃ more, (∀ event ∈ more, event.enqueued? = none) ∧
      ((start ordered workers queueSize).run p (events ++ more)).stopped = true := by
  let r := (start ordered workers queueSize).run p events
  have hs : r.Sound p ordered := (sound_start p ordered workers queueSize).run events
  have hp : r.Permitted := (permitted_start ordered workers queueSize).run events
  obtain ⟨settling, hsettling, hrun⟩ := exists_run_settleWithin p (r.dispatcher.work p) r
  have hsettled : (r.run p settling).dispatcher.nextAction? = none := by
    rw [hrun]
    exact (hs.alive hp).settle.2
  obtain ⟨stopping, hstopping, hstopped⟩ := exists_stop_of_settled (hs.run settling) hsettled
  refine ⟨settling ++ stopping, fun event hevent => ?_, ?_⟩
  · rcases List.mem_append.1 hevent with hevent | hevent
    · exact hsettling event hevent
    · exact hstopping event hevent
  · rw [run_append, run_append]
    exact hstopped

end DispatcherRun

end MetricAgent
