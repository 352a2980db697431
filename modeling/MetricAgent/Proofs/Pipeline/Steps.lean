import MetricAgent.Proofs.Pipeline.Tasks

/-!
# The steps of a task

`StageTask.Step` has one rule for each thing that the task of a processor can
do, and says what it passes on. The rules are the actions of `StageTask.step`
that can happen (`Step.of_step`, `Step.exists_step`).
-/

namespace MetricAgent.StageTask

inductive Step : StageTask → StageTask → Passage → Prop where
  | take {input : Link} {p : Processor} {m : Metric} {rest ms : List Metric}
      (hread : input.isRead = true) (hqueue : input.queue = m :: rest) (hms : p m = some ms) :
      Step ⟨input, .inline p []⟩ ⟨{ input with queue := rest }, .inline p ms⟩ .nothing
  | breakDown {input : Link} {p : Processor} {m : Metric} {rest : List Metric}
      (hread : input.isRead = true) (hqueue : input.queue = m :: rest) (hms : p m = none) :
      Step ⟨input, .inline p []⟩ ⟨input.leave, .inline p []⟩ .finish
  | send {input : Link} {p : Processor} {m : Metric} {unsent : List Metric}
      (hread : input.isRead = true) :
      Step ⟨input, .inline p (m :: unsent)⟩ ⟨input, .inline p unsent⟩ (.metric m)
  | finish {input : Link} {p : Processor} (hread : input.isRead = true)
      (hover : input.isOver = true) :
      Step ⟨input, .inline p []⟩ ⟨input.leave, .inline p []⟩ .finish
  | hold {input : Link} {p : Processor} {run : DispatcherRun} {m : Metric} {rest : List Metric}
      (hread : input.isRead = true) (hqueue : input.queue = m :: rest)
      (hentering : run.dispatcher.entering = none) :
      Step ⟨input, .spread p none run⟩ ⟨{ input with queue := rest }, .spread p (some m) run⟩
        .nothing
  | submit {input : Link} {p : Processor} {run next : DispatcherRun} {m : Metric}
      (hread : input.isRead = true) (hnext : run.step p (.act (.enqueue m)) = some next) :
      Step ⟨input, .spread p (some m) run⟩ ⟨input, .spread p none next⟩ .nothing
  | act {input : Link} {p : Processor} {held : Option Metric} {run next : DispatcherRun}
      {a : DispatchAction} (hread : input.isRead = true) (ha : a.enqueued? = none)
      (hnext : run.step p (.act a) = some next) :
      Step ⟨input, .spread p held run⟩ ⟨input, .spread p held next⟩ (run.emits a)
  | close {input : Link} {p : Processor} {run next : DispatcherRun} (hread : input.isRead = true)
      (hover : input.isOver = true) (hnext : run.step p .close = some next) :
      Step ⟨input, .spread p none run⟩ ⟨input, .spread p none next⟩ .nothing
  | leave {input : Link} {p : Processor} {held : Option Metric} {run next : DispatcherRun}
      (hread : input.isRead = true) (hnext : run.step p .leave = some next) :
      Step ⟨input, .spread p held run⟩ ⟨input, .spread p held next⟩ .nothing
  | stop {input : Link} {p : Processor} {held : Option Metric} {run next : DispatcherRun}
      (hread : input.isRead = true) (hnext : run.step p .stop = some next) :
      Step ⟨input, .spread p held run⟩ ⟨input.leave, .spread p held next⟩ .finish

variable {t t' : StageTask} {a : StageAction} {passage : Passage} {input : Link} {p : Processor}

theorem Step.of_inlineStep {unsent : List Metric} (hread : input.isRead = true)
    (h : inlineStep input p unsent a = some (t', passage)) :
    Step ⟨input, .inline p unsent⟩ t' passage := by
  cases a with
  | take =>
      simp only [inlineStep] at h
      split at h
      · next m rest hqueue =>
        split at h
        · next ms hms =>
          cases h
          exact .take hread hqueue hms
        · next hms =>
          cases h
          exact .breakDown hread hqueue hms
      · cases h
  | send =>
      simp only [inlineStep] at h
      split at h <;> cases h
      exact .send hread
  | finish =>
      simp only [inlineStep, Option.ite_none_right_eq_some, Bool.and_eq_true, List.isEmpty_iff,
        Option.some.injEq, Prod.mk.injEq] at h
      obtain ⟨⟨rfl, hover⟩, rfl, rfl⟩ := h
      exact .finish hread hover
  | submit | dispatch e => cases h

theorem Step.of_spreadStep {held : Option Metric} {run : DispatcherRun}
    (hread : input.isRead = true) (h : spreadStep input p held run a = some (t', passage)) :
    Step ⟨input, .spread p held run⟩ t' passage := by
  cases a with
  | take =>
      simp only [spreadStep] at h
      split at h
      · next m rest hqueue =>
        simp only [Option.ite_none_left_eq_some, Bool.not_eq_true, Option.isSome_eq_false_iff,
          Option.isNone_iff_eq_none, Option.some.injEq, Prod.mk.injEq] at h
        obtain ⟨hentering, rfl, rfl⟩ := h
        exact .hold hread hqueue hentering
      · cases h
  | send | finish => cases h
  | submit =>
      simp only [spreadStep] at h
      split at h
      · obtain ⟨next, hnext, hpair⟩ := Option.map_eq_some_iff.1 h
        cases hpair
        exact .submit hread hnext
      · cases h
  | dispatch e =>
      cases e with
      | act a =>
          simp only [spreadStep, Option.ite_none_left_eq_some, Bool.not_eq_true,
            Option.isSome_eq_false_iff, Option.isNone_iff_eq_none] at h
          obtain ⟨ha, h⟩ := h
          obtain ⟨next, hnext, hpair⟩ := Option.map_eq_some_iff.1 h
          cases hpair
          exact .act hread ha hnext
      | close =>
          simp only [spreadStep, Option.ite_none_right_eq_some, Bool.and_eq_true,
            Option.isNone_iff_eq_none] at h
          obtain ⟨⟨rfl, hover⟩, h⟩ := h
          obtain ⟨next, hnext, hpair⟩ := Option.map_eq_some_iff.1 h
          cases hpair
          exact .close hread hover hnext
      | leave =>
          obtain ⟨next, hnext, hpair⟩ := Option.map_eq_some_iff.1 h
          cases hpair
          exact .leave hread hnext
      | stop =>
          obtain ⟨next, hnext, hpair⟩ := Option.map_eq_some_iff.1 h
          cases hpair
          exact .stop hread hnext

theorem Step.of_step (h : t.step a = some (t', passage)) : Step t t' passage := by
  simp only [step, Option.ite_none_right_eq_some] at h
  obtain ⟨hread, h⟩ := h
  obtain ⟨input, body⟩ := t
  cases body with
  | inline => exact of_inlineStep hread h
  | spread => exact of_spreadStep hread h

theorem Step.exists_step (h : Step t t' passage) : ∃ a, t.step a = some (t', passage) := by
  cases h with
  | take hread hqueue hms => exact ⟨.take, by simp [step, inlineStep, hread, hqueue, hms]⟩
  | breakDown hread hqueue hms => exact ⟨.take, by simp [step, inlineStep, hread, hqueue, hms]⟩
  | send hread => exact ⟨.send, by simp [step, inlineStep, hread]⟩
  | finish hread hover => exact ⟨.finish, by simp [step, inlineStep, hread, hover]⟩
  | hold hread hqueue hentering =>
      exact ⟨.take, by simp [step, spreadStep, hread, hqueue, hentering]⟩
  | submit hread hnext => exact ⟨.submit, by simp [step, spreadStep, hread, hnext]⟩
  | @act _ _ _ _ _ a hread ha hnext =>
      exact ⟨.dispatch (.act a), by simp [step, spreadStep, hread, ha, hnext]⟩
  | close hread hover hnext =>
      exact ⟨.dispatch .close, by simp [step, spreadStep, hread, hover, hnext]⟩
  | leave hread hnext => exact ⟨.dispatch .leave, by simp [step, spreadStep, hread, hnext]⟩
  | stop hread hnext => exact ⟨.dispatch .stop, by simp [step, spreadStep, hread, hnext]⟩

theorem Step.isRead (h : Step t t' passage) : t.input.isRead = true := by
  cases h <;> assumption

/-- The sender before a task is left alone, and the task has ended just when it
drops its own. -/
theorem Step.input_eq (h : Step t t' passage) : t'.input.size = t.input.size ∧
    t'.input.isOpen = t.input.isOpen ∧ t'.input.isRead = passage.keepsSender := by
  cases h with
  | breakDown | finish | stop => exact ⟨rfl, rfl, rfl⟩
  | @act _ _ _ run _ a hread => exact ⟨rfl, rfl, hread.trans (run.keepsSender_emits a).symm⟩
  | take hread | send hread | hold hread | submit hread | close hread | leave hread =>
      exact ⟨rfl, rfl, hread⟩

end MetricAgent.StageTask
