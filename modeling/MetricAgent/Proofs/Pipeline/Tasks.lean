import MetricAgent.Pipeline.Tasks
import MetricAgent.Proofs.Processor.Order

/-!
# What one task passes on

A task of a processor is followed from the metrics that arrived at its input to
those that it passed on. At any time it has taken the first ones, and what it
has passed on, with what it still holds, is what the processor yields for them.
`StageTask.Sound` is kept by every action of the task and by everything that
arrives. When the task has ended, everything that arrived has been taken and
nothing is held, so all results have been passed on, in order.
-/

namespace MetricAgent

namespace Link

variable {l l' : Link} {passage : Passage}

theorem isOver_iff : l.isOver = true ↔ l.queue = [] ∧ l.isOpen = false := by
  simp [isOver]

theorem not_isOver (hopen : l.isOpen = true) : ¬ l.isOver = true := by
  intro h
  rw [(isOver_iff.1 h).2] at hopen
  cases hopen

/-- A passage into a link that is read. -/
theorem pass?_eq (hread : l.isRead = true) (h : l.pass? passage = some l') :
    l' = { l with
      queue := l.queue ++ passage.metrics
      isOpen := l.isOpen && passage.keepsSender } := by
  cases passage with
  | nothing =>
      cases h
      simp [Passage.metrics, Passage.keepsSender]
  | metric m =>
      simp only [pass?, send?, if_pos hread, Option.ite_none_right_eq_some, Option.some.injEq] at h
      rw [← h.2]
      simp [Passage.metrics, Passage.keepsSender]
  | finish =>
      cases h
      simp [Passage.metrics, Passage.keepsSender]

end Link

namespace DispatcherRun

variable {p : Processor} {r s : DispatcherRun}

theorem Sound.closed_of_stopped {ordered : Bool} (hs : r.Sound p ordered)
    (h : r.stopped = true) : r.closed = true := by
  obtain ⟨hleft, -, -, -⟩ := hs.stopped h
  exact (hs.jobs (hleft ▸ hs.workers_pos)).1

theorem Sound.sent_of_stopped (hs : r.Sound p true) (h : r.stopped = true) :
    r.dispatcher.sent = r.enqueued.flatMap p.yields := by
  obtain ⟨hleft, hresults, hemitting, hnext⟩ := hs.stopped h
  obtain ⟨begun, hbegun⟩ := hs.results
  exact hbegun.sent_eq hs.ordered (hs.isDrained hleft hresults) hemitting hnext

/-- What an action of one of the parties changes that is seen from outside. -/
theorem act_eq {a : DispatchAction} (h : r.step p (.act a) = some s) :
    s.closed = r.closed ∧ s.enqueued = r.enqueued ++ a.enqueued?.toList ∧
      s.dispatcher.sent = r.dispatcher.sent ++ (r.emits a).metrics := by
  simp only [step, Option.ite_none_left_eq_some, Option.map_eq_some_iff] at h
  obtain ⟨-, d, hd, rfl⟩ := h
  refine ⟨rfl, rfl, ?_⟩
  cases Dispatcher.Step.of_step hd with
  | send hemitting => simp [emits, Dispatcher.sendNext?, hemitting, Passage.metrics]
  | _ => simp [emits, Passage.metrics]

/-- Events other than an action bring nothing in and send nothing. -/
theorem ends_eq {e : DispatcherEvent} (h : r.step p e = some s) (he : ∀ a, e ≠ .act a) :
    s.enqueued = r.enqueued ∧ s.dispatcher.sent = r.dispatcher.sent ∧
      (e ≠ .close → s.closed = r.closed) := by
  cases e with
  | act a => exact absurd rfl (he a)
  | close =>
      simp only [step, Option.ite_none_left_eq_some, Option.some.injEq] at h
      obtain ⟨-, rfl⟩ := h
      exact ⟨rfl, rfl, fun hne => absurd rfl hne⟩
  | leave =>
      simp only [step, Option.ite_none_right_eq_some, Option.some.injEq] at h
      obtain ⟨-, rfl⟩ := h
      exact ⟨rfl, rfl, fun _ => rfl⟩
  | stop =>
      simp only [step, Option.ite_none_right_eq_some, Option.some.injEq] at h
      obtain ⟨-, rfl⟩ := h
      exact ⟨rfl, rfl, fun _ => rfl⟩

theorem stopped_of_stop (h : r.step p .stop = some s) : s.stopped = true := by
  simp only [step, Option.ite_none_right_eq_some, Option.some.injEq] at h
  obtain ⟨-, rfl⟩ := h
  rfl

theorem keepsSender_emits (r : DispatcherRun) (a : DispatchAction) :
    (r.emits a).keepsSender = true := by
  unfold emits
  split
  · split <;> rfl
  · rfl

end DispatcherRun

/-- What a task makes of the metrics that it has taken. -/
inductive StageBody.Sound (p : Processor) (input : Link) (taken passed : List Metric) :
    StageBody → Prop where
  | inline {unsent : List Metric} (yields : passed ++ unsent = taken.flatMap p.yields)
      (ended : input.isRead = false → unsent = []) : Sound p input taken passed (.inline p unsent)
  | spread {held : Option Metric} {run : DispatcherRun} (sound : run.Sound p true)
      (taken_eq : taken = run.enqueued ++ held.toList) (passed_eq : passed = run.dispatcher.sent)
      (closed : run.closed = true → input.isOver = true ∧ held = none)
      (ended : input.isRead = false → run.stopped = true) :
      Sound p input taken passed (.spread p held run)

namespace StageTask

/-- A task of a processor that does not break down, the metrics that arrived at
it and those that it passed on. -/
structure Sound (p : Processor) (arrived passed : List Metric) (t : StageTask) : Prop where
  total : p.IsTotal
  ended : t.input.isRead = false → t.input.isOver = true
  body : ∃ taken, arrived = taken ++ t.input.queue ∧ t.body.Sound p t.input taken passed

variable {p : Processor} {arrived passed taken : List Metric} {t t' : StageTask}
  {input : Link} {passage : Passage}

theorem sound_start {s : ProcessorStage} (channelSize : Nat) {workers queueSize : Nat}
    {ordered : Bool} (hs : s = .make p workers ordered queueSize)
    (hmode : workers ≤ 1 ∨ ordered = true) (htotal : p.IsTotal) :
    (start channelSize s).Sound p [] [] := by
  subst hs
  unfold ProcessorStage.make
  split
  · next hworkers =>
    obtain rfl : ordered = true := hmode.resolve_left (Nat.not_le.2 hworkers)
    exact ⟨htotal, nofun, [], rfl, .spread (DispatcherRun.sound_start p true workers queueSize) rfl
      rfl nofun nofun⟩
  · exact ⟨htotal, nofun, [], rfl, .inline rfl nofun⟩

/-- As long as something may arrive, the task has not ended. -/
theorem Sound.isRead (hs : t.Sound p arrived passed) (hopen : t.input.isOpen = true) :
    t.input.isRead = true := by
  by_contra hread
  exact Link.not_isOver hopen (hs.ended (Bool.eq_false_iff.2 hread))

theorem Sound.pass (hs : t.Sound p arrived passed) (hopen : t.input.isOpen = true) {l : Link}
    (h : t.input.pass? passage = some l) :
    ({ t with input := l } : StageTask).Sound p (arrived ++ passage.metrics) passed := by
  have hread := hs.isRead hopen
  obtain rfl := Link.pass?_eq hread h
  obtain ⟨input, body⟩ := t
  obtain ⟨taken, rfl, hbody⟩ := hs.body
  refine ⟨hs.total, fun hunread => ?_, taken, List.append_assoc _ _ _, ?_⟩
  · rw [hread] at hunread
    cases hunread
  · cases hbody with
    | inline hyields hended => exact .inline hyields hended
    | spread hsound htaken hpassed hclosed hended =>
        exact .spread hsound htaken hpassed (fun h => absurd (hclosed h).1 (Link.not_isOver hopen))
          hended

/-! ### What an action keeps -/

theorem Sound.inlineStep {unsent : List Metric} {a : StageAction}
    (hs : Sound p arrived passed ⟨input, .inline p unsent⟩) (hread : input.isRead = true)
    (h : inlineStep input p unsent a = some (t', passage)) :
    t'.Sound p arrived (passed ++ passage.metrics) ∧ t'.input.isOpen = input.isOpen ∧
      t'.input.isRead = passage.keepsSender := by
  obtain ⟨taken, rfl, hbody⟩ := hs.body
  have hunread : input.isRead ≠ false := by simp [hread]
  cases hbody with
  | inline hyields hended =>
  cases a with
  | take =>
      simp only [StageTask.inlineStep] at h
      split at h
      · next m rest hqueue =>
        -- The processor gives a result, so the branch of a breakdown is not reached.
        obtain ⟨ms, hms⟩ := Option.isSome_iff_exists.1 (hs.total m)
        rw [hms] at h
        cases h
        rw [List.append_nil] at hyields
        refine ⟨⟨hs.total, fun h => absurd h hunread, taken ++ [m], ?_,
          .inline ?_ fun h => absurd h hunread⟩, rfl, hread⟩
        · simp [hqueue]
        · simp [Passage.metrics, hyields, Processor.yields, hms]
      · cases h
  | send =>
      simp only [StageTask.inlineStep] at h
      split at h
      · next m rest =>
        cases h
        refine ⟨⟨hs.total, hs.ended, taken, rfl, .inline ?_ fun h => absurd h hunread⟩, rfl, hread⟩
        rw [← hyields]
        simp [Passage.metrics]
      · cases h
  | finish =>
      simp only [StageTask.inlineStep, Option.ite_none_right_eq_some, Bool.and_eq_true,
        List.isEmpty_iff, Option.some.injEq, Prod.mk.injEq] at h
      obtain ⟨⟨rfl, hover⟩, rfl, rfl⟩ := h
      obtain ⟨hqueue, hshut⟩ := Link.isOver_iff.1 hover
      refine ⟨⟨hs.total, fun _ => Link.isOver_iff.2 ⟨rfl, hshut⟩, taken, ?_,
        .inline ?_ fun _ => rfl⟩, rfl, rfl⟩
      · simp [hqueue, Link.leave]
      · simpa [Passage.metrics] using hyields
  | submit => cases h
  | dispatch e => cases h

/-- Something happens in the dispatcher that brings no metric in. -/
theorem Sound.dispatched {held : Option Metric} {run next : DispatcherRun} {e : DispatcherEvent}
    (hs : Sound p arrived passed ⟨input, .spread p held run⟩) (hread : input.isRead = true)
    (hnext : run.step p e = some next) (henqueued : next.enqueued = run.enqueued)
    (hsent : next.dispatcher.sent = run.dispatcher.sent ++ passage.metrics)
    (hclosed : next.closed = true → run.closed = true ∨ input.isOver = true ∧ held = none) :
    Sound p arrived (passed ++ passage.metrics) ⟨input, .spread p held next⟩ := by
  obtain ⟨taken, harrived, hbody⟩ := hs.body
  cases hbody with
  | spread hsound htaken hpassed hover hended =>
  refine ⟨hs.total, hs.ended, taken, harrived, .spread (hsound.step hnext) ?_ ?_ ?_ ?_⟩
  · rw [henqueued, htaken]
  · rw [hsent, hpassed]
  · exact fun h => (hclosed h).elim hover id
  · intro hunread
    rw [hread] at hunread
    cases hunread

theorem Sound.spreadStep {held : Option Metric} {run : DispatcherRun} {a : StageAction}
    (hs : Sound p arrived passed ⟨input, .spread p held run⟩) (hread : input.isRead = true)
    (h : spreadStep input p held run a = some (t', passage)) :
    t'.Sound p arrived (passed ++ passage.metrics) ∧ t'.input.isOpen = input.isOpen ∧
      t'.input.isRead = passage.keepsSender := by
  obtain ⟨taken, rfl, hbody⟩ := hs.body
  have hunread : input.isRead ≠ false := by simp [hread]
  cases hbody with
  | spread hsound htaken hpassed hclosed hended =>
  cases a with
  | take =>
      simp only [StageTask.spreadStep] at h
      split at h
      · next m rest hqueue =>
        simp only [Option.ite_none_left_eq_some, Option.some.injEq, Prod.mk.injEq] at h
        obtain ⟨-, rfl, rfl⟩ := h
        refine ⟨⟨hs.total, fun h => absurd h hunread, taken ++ [m], ?_,
          .spread hsound ?_ ?_ (fun hc => ?_) fun h => absurd h hunread⟩, rfl, hread⟩
        · simp [hqueue]
        · simp [htaken]
        · simp [Passage.metrics, hpassed]
        · -- A closed dispatcher would have found the queue empty.
          have hover := Link.isOver_iff.1 (hclosed hc).1
          simp [hqueue] at hover
      · cases h
  | send => cases h
  | finish => cases h
  | submit =>
      simp only [StageTask.spreadStep] at h
      split at h
      · next m =>
        obtain ⟨next, hnext, hpair⟩ := Option.map_eq_some_iff.1 h
        cases hpair
        obtain ⟨hshut, henqueued, hsent⟩ := DispatcherRun.act_eq hnext
        refine ⟨⟨hs.total, hs.ended, taken, rfl, .spread (hsound.step hnext) ?_ ?_
          (fun hc => ⟨(hclosed (hshut ▸ hc)).1, rfl⟩) fun h => absurd h hunread⟩, rfl, hread⟩
        · simp [htaken, henqueued, DispatchAction.enqueued?]
        · rw [hsent, hpassed]
          rfl
      · cases h
  | dispatch e =>
      cases e with
      | act a =>
          simp only [StageTask.spreadStep, Option.ite_none_left_eq_some] at h
          obtain ⟨hquiet, h⟩ := h
          obtain ⟨next, hnext, hpair⟩ := Option.map_eq_some_iff.1 h
          cases hpair
          obtain ⟨hshut, henqueued, hsent⟩ := DispatcherRun.act_eq hnext
          have hnone : a.enqueued? = none := by simpa using hquiet
          rw [hnone, Option.toList_none, List.append_nil] at henqueued
          refine ⟨hs.dispatched hread hnext henqueued hsent fun hc => .inl (hshut ▸ hc), rfl, ?_⟩
          rw [run.keepsSender_emits]
          exact hread
      | close =>
          simp only [StageTask.spreadStep, Option.ite_none_right_eq_some, Bool.and_eq_true,
            Option.isNone_iff_eq_none] at h
          obtain ⟨⟨hheld, hover⟩, h⟩ := h
          obtain ⟨next, hnext, hpair⟩ := Option.map_eq_some_iff.1 h
          cases hpair
          obtain ⟨henqueued, hsent, -⟩ := DispatcherRun.ends_eq hnext (fun _ => nofun)
          have hnothing := hsent.trans (List.append_nil _).symm
          exact ⟨hs.dispatched hread hnext henqueued hnothing fun _ => .inr ⟨hover, hheld⟩, rfl,
            hread⟩
      | leave =>
          simp only [StageTask.spreadStep] at h
          obtain ⟨next, hnext, hpair⟩ := Option.map_eq_some_iff.1 h
          cases hpair
          obtain ⟨henqueued, hsent, hshut⟩ := DispatcherRun.ends_eq hnext (fun _ => nofun)
          have hnothing := hsent.trans (List.append_nil _).symm
          exact ⟨hs.dispatched hread hnext henqueued hnothing
            fun hc => .inl ((hshut nofun).symm.trans hc), rfl, hread⟩
      | stop =>
          simp only [StageTask.spreadStep] at h
          obtain ⟨next, hnext, hpair⟩ := Option.map_eq_some_iff.1 h
          cases hpair
          have hkept := hsound.step hnext
          -- A dispatcher that stops was closed, so the input was over by then.
          obtain ⟨henqueued, hsent, hshut⟩ := DispatcherRun.ends_eq hnext (fun _ => nofun)
          have hstopped : next.stopped = true := DispatcherRun.stopped_of_stop hnext
          obtain ⟨hover, rfl⟩ := hclosed ((hshut nofun).symm.trans (hkept.closed_of_stopped hstopped))
          obtain ⟨hqueue, hnobody⟩ : input.queue = [] ∧ input.isOpen = false :=
            Link.isOver_iff.1 hover
          have hleft : input.leave.isOver = true := Link.isOver_iff.2 ⟨rfl, hnobody⟩
          refine ⟨⟨hs.total, fun _ => hleft, taken, ?_, .spread hkept ?_ ?_
            (fun _ => ⟨hleft, rfl⟩) fun _ => hstopped⟩, rfl, rfl⟩
          · simp [hqueue, Link.leave]
          · rw [henqueued, htaken]
          · rw [hsent, hpassed]
            exact List.append_nil _

theorem Sound.step {a : StageAction} (hs : t.Sound p arrived passed)
    (h : t.step a = some (t', passage)) :
    t.input.isRead = true ∧ t'.Sound p arrived (passed ++ passage.metrics) ∧
      t'.input.isOpen = t.input.isOpen ∧ t'.input.isRead = passage.keepsSender := by
  simp only [StageTask.step, Option.ite_none_right_eq_some] at h
  obtain ⟨hread, h⟩ := h
  refine ⟨hread, ?_⟩
  obtain ⟨input, body⟩ := t
  obtain ⟨taken, -, hbody⟩ := hs.body
  cases hbody with
  | inline => exact hs.inlineStep hread h
  | spread => exact hs.spreadStep hread h

/-- A task that has ended has passed on all that its processor yields. -/
theorem Sound.passed_eq (hs : t.Sound p arrived passed) (h : t.input.isRead = false) :
    passed = arrived.flatMap p.yields := by
  obtain ⟨taken, harrived, hbody⟩ := hs.body
  have hover := hs.ended h
  rw [(Link.isOver_iff.1 hover).1, List.append_nil] at harrived
  obtain ⟨input, body⟩ := t
  cases hbody with
  | inline hyields hended => rw [harrived, ← hyields, hended h, List.append_nil]
  | spread hsound htaken hpassed hclosed hended =>
      have hstopped := hended h
      obtain ⟨-, rfl⟩ := hclosed (hsound.closed_of_stopped hstopped)
      rw [Option.toList_none, List.append_nil] at htaken
      rw [harrived, htaken, hpassed, hsound.sent_of_stopped hstopped]

end StageTask

end MetricAgent
