import Mathlib.Logic.Relation
import MetricAgent.Pipeline.Service
import MetricAgent.Proofs.Pipeline.Steps
import MetricAgent.Proofs.Processor.Progress

/-!
# Tasks that are drained

A task by itself never gets stuck. As long as it can pass on what it makes, it
can take all that waits at its input and get rid of what comes of it, and when
nothing more can arrive it can end. This is shown for the task of a processor
(`StageTask.Live.exists_ready`, `StageTask.Live.exists_ended`), for the one of
the aggregators and for the fan-out.

`Moves` is the relation of the states of a task that some of its actions lead
from one to the other, whatever these pass on.
-/

namespace MetricAgent

open Relation (ReflTransGen)

/-- Whatever is sent finds room, or is lost. -/
def Link.Ready (l : Link) : Prop := l.isRead = false ∨ l.queue = []

theorem Link.Ready.exists_pass {l : Link} (h : l.Ready) (hsize : 0 < l.size) (passage : Passage) :
    ∃ l', l.pass? passage = some l' := by
  cases passage with
  | nothing => exact ⟨l, rfl⟩
  | finish => exact ⟨_, rfl⟩
  | metric m =>
      rcases h with hread | hqueue
      · exact ⟨l, by simp [Link.pass?, Link.send?, hread]⟩
      · cases hread : l.isRead with
        | false => exact ⟨l, by simp [Link.pass?, Link.send?, hread]⟩
        | true => exact ⟨_, by simp [Link.pass?, Link.send?, hread, hqueue, hsize]; rfl⟩

theorem Link.pass?_kept {l l' : Link} {passage : Passage} (h : l.pass? passage = some l') :
    l'.size = l.size ∧ l'.isOpen = (l.isOpen && passage.keepsSender) ∧ l'.isRead = l.isRead := by
  cases passage with
  | nothing =>
      cases h
      simp [Passage.keepsSender]
  | finish =>
      cases h
      simp [Passage.keepsSender]
  | metric m =>
      simp only [Link.pass?, Link.send?] at h
      split at h
      · simp only [Option.ite_none_right_eq_some, Option.some.injEq] at h
        obtain ⟨-, rfl⟩ := h
        simp [Passage.keepsSender]
      · cases h
        simp [Passage.keepsSender]

theorem Link.isOpen_of_pass {l l' : Link} {passage : Passage} (hopen : l.isOpen = true)
    (h : l.pass? passage = some l') : l'.isOpen = passage.keepsSender := by
  rw [(Link.pass?_kept h).2.1, hopen, Bool.true_and]

/-! ### Dispatchers -/

namespace DispatcherRun

variable {p : Processor} {r s : DispatcherRun}

/-- A dispatcher that has room for a metric whenever none is inside. -/
structure Live (p : Processor) (r : DispatcherRun) : Prop where
  sound : ∃ ordered, r.Sound p ordered
  permitted : r.Permitted
  size : 0 < r.dispatcher.queueSize

theorem live_start (p : Processor) (ordered : Bool) (workers queueSize : Nat) :
    (start ordered workers queueSize).Live p :=
  ⟨⟨ordered, sound_start p ordered workers queueSize⟩, permitted_start ordered workers queueSize,
    Nat.lt_of_lt_of_le Nat.zero_lt_one (Nat.le_max_right _ _)⟩

theorem Live.step (hr : r.Live p) {e : DispatcherEvent} (h : r.step p e = some s) : s.Live p := by
  obtain ⟨⟨ordered, hs⟩, hp, hsize⟩ := hr
  refine ⟨⟨ordered, hs.step h⟩, hp.step h, ?_⟩
  rcases dispatcher_step h with ⟨-, hsame, -⟩ | ⟨a, -, hstep, -⟩
  · rwa [hsame]
  · rwa [hstep.settings.2.2]

theorem Live.alive (hr : r.Live p) : r.dispatcher.Alive p r.enqueued := by
  obtain ⟨⟨ordered, hs⟩, hp, -⟩ := hr
  exact hs.alive hp

/-- A dispatcher without a metric takes one, unless it is closed. -/
theorem Live.exists_enqueue (hr : r.Live p) (h : r.dispatcher.nextAction? = none)
    (hclosed : r.closed = false) (m : Metric) : ∃ s, r.step p (.act (.enqueue m)) = some s := by
  have hinside := hr.alive.inside_eq_zero h
  obtain ⟨begun, hbegun⟩ := hr.alive.results
  have hpermits := hbegun.permits_add_inside hr.permitted.balanced
  have hentering := (Dispatcher.nextAction?_eq_none h).1.1
  have hsize := hr.size
  have hne : r.dispatcher.permits ≠ 0 := by omega
  simp [DispatcherRun.step, Dispatcher.step, hclosed, hentering, hne]

end DispatcherRun

/-! ### The tasks of processors -/

def StageBody.Live (input : Link) : StageBody → Prop
  | .inline _ _ => True
  | .spread p held run =>
    run.Live p ∧ (run.closed = true → input.isOver = true ∧ held = none)

/-- A body that has passed on all that it has taken. -/
def StageBody.Idle : StageBody → Prop
  | .inline _ unsent => unsent = []
  | .spread _ held run => held = none ∧ run.dispatcher.nextAction? = none

/-- A stage has been made of a processor and its settings, as the ones of every
pipeline are that has been built. -/
def ProcessorStage.IsMade (s : ProcessorStage) : Prop :=
  ∃ p workers ordered queueSize, s = make p workers ordered queueSize

namespace StageTask

structure Live (t : StageTask) : Prop where
  size : 0 < t.input.size
  body : t.body.Live t.input

variable {t t' : StageTask} {p : Processor} {input : Link} {held : Option Metric}
  {run : DispatcherRun} {passage : Passage}

theorem live_start (p : Processor) {workers queueSize : Nat} {ordered : Bool} {channelSize : Nat}
    (hsize : 0 < channelSize) : (start channelSize (.make p workers ordered queueSize)).Live := by
  unfold ProcessorStage.make
  split
  · exact ⟨hsize, DispatcherRun.live_start p ordered workers queueSize, nofun⟩
  · exact ⟨hsize, trivial⟩

theorem Live.pass (ht : t.Live) (hopen : t.input.isOpen = true) {l : Link}
    (h : t.input.pass? passage = some l) : ({ t with input := l } : StageTask).Live := by
  obtain ⟨input, body⟩ := t
  obtain ⟨hsize, hbody⟩ := ht
  refine ⟨(Link.pass?_kept h).1 ▸ hsize, ?_⟩
  cases body with
  | inline => trivial
  | spread =>
      obtain ⟨hlive, hclosed⟩ := hbody
      exact ⟨hlive, fun h => absurd (hclosed h).1 (Link.not_isOver hopen)⟩

theorem Live.step (ht : t.Live) (h : Step t t' passage) : t'.Live := by
  obtain ⟨hsize, hbody⟩ := ht
  refine ⟨h.input_eq.1 ▸ hsize, ?_⟩
  cases h with
  | take | breakDown | send | finish => trivial
  | hold hread hqueue =>
      obtain ⟨hlive, hclosed⟩ := hbody
      refine ⟨hlive, fun h => ?_⟩
      have hover := Link.isOver_iff.1 (hclosed h).1
      simp [hqueue] at hover
  | submit hread hnext =>
      obtain ⟨hlive, hclosed⟩ := hbody
      refine ⟨hlive.step hnext, fun h => ?_⟩
      rw [(DispatcherRun.act_eq hnext).1] at h
      cases (hclosed h).2
  | act hread ha hnext =>
      obtain ⟨hlive, hclosed⟩ := hbody
      refine ⟨hlive.step hnext, fun h => hclosed ?_⟩
      rwa [(DispatcherRun.act_eq hnext).1] at h
  | close hread hover hnext =>
      obtain ⟨hlive, -⟩ := hbody
      exact ⟨hlive.step hnext, fun _ => ⟨hover, rfl⟩⟩
  | leave hread hnext =>
      obtain ⟨hlive, hclosed⟩ := hbody
      refine ⟨hlive.step hnext, fun h => hclosed ?_⟩
      rwa [(DispatcherRun.ends_eq hnext fun _ => nofun).2.2 nofun] at h
  | stop hread hnext =>
      obtain ⟨hlive, hclosed⟩ := hbody
      refine ⟨hlive.step hnext, fun h => ?_⟩
      rw [(DispatcherRun.ends_eq hnext fun _ => nofun).2.2 nofun] at h
      obtain ⟨hover, hheld⟩ := hclosed h
      exact ⟨Link.isOver_iff.2 ⟨rfl, (Link.isOver_iff.1 hover).2⟩, hheld⟩

def Moves : StageTask → StageTask → Prop := ReflTransGen fun t t' => ∃ passage, Step t t' passage

theorem Step.moves (h : Step t t' passage) : t.Moves t' := .single ⟨passage, h⟩

theorem Live.moves (ht : t.Live) (h : t.Moves t') : t'.Live ∧ t'.input.isOpen = t.input.isOpen := by
  induction h with
  | refl => exact ⟨ht, rfl⟩
  | tail _ hstep ih =>
      obtain ⟨passage, hstep⟩ := hstep
      exact ⟨ih.1.step hstep, hstep.input_eq.2.1.trans ih.2⟩

/-! What has been taken is passed on -/

theorem moves_sent (hread : input.isRead = true) (unsent : List Metric) :
    Moves ⟨input, .inline p unsent⟩ ⟨input, .inline p []⟩ := by
  induction unsent with
  | nil => exact .refl
  | cons m unsent ih => exact (Step.send hread).moves.trans ih

/-- A dispatcher settles while its task waits. -/
theorem moves_settleWithin (hread : input.isRead = true) (fuel : Nat) (run : DispatcherRun) :
    Moves ⟨input, .spread p held run⟩
      ⟨input, .spread p held { run with dispatcher := run.dispatcher.settleWithin p fuel }⟩ := by
  induction fuel generalizing run with
  | zero => exact .refl
  | succ fuel ih =>
      unfold Dispatcher.settleWithin
      cases h : run.dispatcher.nextAction?.bind (run.dispatcher.step p) with
      | none => exact .refl
      | some d =>
          obtain ⟨a, hnext, hstep⟩ := Option.bind_eq_some_iff.1 h
          have ha := Dispatcher.enqueued?_of_nextAction? hnext
          have hact : run.step p (.act a) = some { run with dispatcher := d } := by
            simp [DispatcherRun.step, ha, hstep]
          exact (Step.act hread ha hact).moves.trans (ih { run with dispatcher := d })

theorem exists_settled (hrun : run.Live p) (hread : input.isRead = true) (held : Option Metric) :
    ∃ settled, Moves ⟨input, .spread p held run⟩ ⟨input, .spread p held settled⟩ ∧
      settled.dispatcher.nextAction? = none ∧ settled.closed = run.closed :=
  ⟨_, moves_settleWithin hread (run.dispatcher.work p) run, hrun.alive.settle.2, rfl⟩

/-- A task can always come to rest without another metric. -/
theorem Live.exists_idle (ht : t.Live) (hread : t.input.isRead = true) :
    ∃ body, t.Moves ⟨t.input, body⟩ ∧ body.Idle := by
  obtain ⟨input, body⟩ := t
  cases body with
  | inline p unsent => exact ⟨.inline p [], moves_sent hread unsent, rfl⟩
  | spread p held run =>
      obtain ⟨hrun, hclosed⟩ := ht.body
      obtain ⟨settled, hmoves, hnext, hsame⟩ := exists_settled hrun hread held
      cases held with
      | none => exact ⟨_, hmoves, rfl, hnext⟩
      | some m =>
          -- The metric that the task holds finds a dispatcher that is empty.
          have hopen : settled.closed = false := by
            rw [hsame, Bool.eq_false_iff]
            intro h
            cases (hclosed h).2
          have hsettled := (ht.moves hmoves).1.body.1
          obtain ⟨next, hstep⟩ := hsettled.exists_enqueue hnext hopen m
          obtain ⟨last, hlast, hdone, -⟩ := exists_settled (hsettled.step hstep) hread none
          exact ⟨_, (hmoves.trans (Step.submit hread hstep).moves).trans hlast, rfl, hdone⟩

/-- A task can take all that waits for it, or breaks down on the way. -/
theorem Live.exists_ready (ht : t.Live) : ∃ t', t.Moves t' ∧
    (t'.input.isRead = false ∨ t'.input.queue = [] ∧ t'.body.Idle) := by
  generalize hn : t.input.queue.length = n
  induction n generalizing t with
  | zero =>
      cases hread : t.input.isRead with
      | false => exact ⟨t, .refl, .inl hread⟩
      | true =>
          obtain ⟨body, hmoves, hidle⟩ := ht.exists_idle hread
          exact ⟨_, hmoves, .inr ⟨List.length_eq_zero_iff.1 hn, hidle⟩⟩
  | succ n ih =>
      cases hread : t.input.isRead with
      | false => exact ⟨t, .refl, .inl hread⟩
      | true =>
          obtain ⟨body, hmoves, hidle⟩ := ht.exists_idle hread
          obtain ⟨m, rest, hqueue⟩ := List.exists_cons_of_length_eq_add_one hn
          have hrest : rest.length = n := by simpa [hqueue] using hn
          obtain ⟨t₁, htaken, hlength⟩ :
              ∃ t₁, Moves ⟨t.input, body⟩ t₁ ∧
                (t₁.input.queue.length = n ∨ t₁.input.isRead = false) := by
            cases body with
            | inline p unsent =>
                obtain rfl : unsent = [] := hidle
                cases hms : p m with
                | some ms => exact ⟨_, (Step.take hread hqueue hms).moves, .inl hrest⟩
                | none => exact ⟨_, (Step.breakDown hread hqueue hms).moves, .inr rfl⟩
            | spread p held run =>
                obtain ⟨rfl, hnext⟩ := hidle
                have hentering := (Dispatcher.nextAction?_eq_none hnext).1.1
                exact ⟨_, (Step.hold hread hqueue hentering).moves, .inl hrest⟩
          have hpath := hmoves.trans htaken
          rcases hlength with hlength | hbroken
          · obtain ⟨t', hmoves', hready⟩ := ih (ht.moves hpath).1 hlength
            exact ⟨t', hpath.trans hmoves', hready⟩
          · exact ⟨t₁, hpath, .inl hbroken⟩

/-! When nothing can arrive, a task can end -/

theorem moves_left (hread : input.isRead = true) (held : Option Metric) (run : DispatcherRun)
    (n : Nat) (hclosed : run.closed = true) (hdrained : run.dispatcher.IsDrained)
    (hn : run.left + n ≤ run.dispatcher.workers) :
    Moves ⟨input, .spread p held run⟩
      ⟨input, .spread p held { run with left := run.left + n }⟩ := by
  induction n generalizing run with
  | zero => exact .refl
  | succ n ih =>
      have hrest := ih { run with left := run.left + 1 } hclosed hdrained (by dsimp only; omega)
      rw [Nat.add_assoc, Nat.add_comm 1 n] at hrest
      obtain ⟨-, hjobs, hbusy, hholding, -⟩ := hdrained
      have hlt : run.left < run.dispatcher.workers := by omega
      have hleave : run.step p .leave = some { run with left := run.left + 1 } := by
        simp [DispatcherRun.step, hclosed, hjobs, hbusy, hholding, hlt]
      exact (Step.leave hread hleave).moves.trans hrest

theorem exists_stopped (hrun : run.Live p) (hread : input.isRead = true)
    (hover : input.isOver = true) (hnext : run.dispatcher.nextAction? = none) :
    ∃ t', Moves ⟨input, .spread p none run⟩ t' ∧ t'.input.isRead = false := by
  obtain ⟨hdrained, hemitting, hnone⟩ := Dispatcher.nextAction?_eq_none hnext
  obtain ⟨ordered, hs⟩ := hrun.sound
  let rest := run.dispatcher.workers - run.left
  have hle : run.left + rest = run.dispatcher.workers := by
    have := hs.workers
    omega
  have hclose : run.step p .close = some { run with closed := true } := by
    simp [DispatcherRun.step, hdrained.1]
  have hstop : ({ run with closed := true, left := run.left + rest } : DispatcherRun).step p .stop =
      some { run with closed := true, left := run.left + rest, stopped := true } := by
    simp [DispatcherRun.step, hle, hdrained.2.2.2.2, hemitting, hnone]
  have hleft := moves_left (p := p) hread none { run with closed := true } rest rfl hdrained
    (Nat.le_of_eq hle)
  exact ⟨_, ((Step.close hread hover hclose).moves.trans hleft).trans (Step.stop hread hstop).moves,
    rfl⟩

theorem Live.exists_ended (ht : t.Live) (hopen : t.input.isOpen = false) :
    ∃ t', t.Moves t' ∧ t'.input.isRead = false := by
  obtain ⟨t₁, hmoves, hended | ⟨hqueue, hidle⟩⟩ := ht.exists_ready
  · exact ⟨t₁, hmoves, hended⟩
  obtain ⟨ht₁, hsame⟩ := ht.moves hmoves
  have hover : t₁.input.isOver = true := Link.isOver_iff.2 ⟨hqueue, hsame.trans hopen⟩
  cases hread : t₁.input.isRead with
  | false => exact ⟨t₁, hmoves, hread⟩
  | true =>
      obtain ⟨input, body⟩ := t₁
      cases body with
      | inline p unsent =>
          obtain rfl : unsent = [] := hidle
          exact ⟨_, hmoves.trans (Step.finish hread hover).moves, rfl⟩
      | spread p held run =>
          obtain ⟨rfl, hnext⟩ := hidle
          obtain ⟨t', hmoves', hended⟩ := exists_stopped ht₁.body.1 hread hover hnext
          exact ⟨t', hmoves.trans hmoves', hended⟩

end StageTask

/-! ### The task of the aggregators -/

namespace AggregatorTask

structure Live (t : AggregatorTask) : Prop where
  size : 0 < t.input.size
  drained : t.drained = true → t.input.isOver = true

def Moves : AggregatorTask → AggregatorTask → Prop :=
  ReflTransGen fun t t' => ∃ a passage, t.step a = some (t', passage)

variable {t t' : AggregatorTask} {a : AggregatorAction} {passage : Passage}

theorem live_start {channelSize : Nat} (hsize : 0 < channelSize)
    (stage : List (Running Aggregator)) : (start channelSize stage).Live :=
  ⟨hsize, nofun⟩

theorem Live.pass (ht : t.Live) (hopen : t.input.isOpen = true) {l : Link}
    (h : t.input.pass? passage = some l) : ({ t with input := l } : AggregatorTask).Live :=
  ⟨(Link.pass?_kept h).1 ▸ ht.size, fun hd => absurd (ht.drained hd) (Link.not_isOver hopen)⟩

theorem isRead_of_step (h : t.step a = some (t', passage)) : t.input.isRead = true := by
  simp only [step, Option.ite_none_right_eq_some] at h
  exact h.1

theorem moves_of_step (h : t.step a = some (t', passage)) : t.Moves t' := .single ⟨a, passage, h⟩

theorem Live.step (ht : t.Live) (h : t.step a = some (t', passage)) : t'.Live ∧
    t'.input.isOpen = t.input.isOpen ∧ t'.input.isRead = passage.keepsSender := by
  have hread := isRead_of_step h
  simp only [AggregatorTask.step, if_pos hread] at h
  split at h
  · cases h
    exact ⟨⟨ht.size, ht.drained⟩, rfl, hread⟩
  · split at h
    · next m rest hqueue =>
      cases h
      refine ⟨⟨ht.size, fun hd => ?_⟩, rfl, hread⟩
      have hover := Link.isOver_iff.1 (ht.drained hd)
      simp [hqueue] at hover
    · cases h
  · split at h <;> cases h
    exact ⟨⟨ht.size, ht.drained⟩, rfl, hread⟩
  · simp only [Option.ite_none_right_eq_some, Bool.and_eq_true, Option.some.injEq,
      Prod.mk.injEq] at h
    obtain ⟨⟨hover, -⟩, rfl, rfl⟩ := h
    exact ⟨⟨ht.size, fun _ => hover⟩, rfl, hread⟩
  · simp only [Option.ite_none_right_eq_some, Option.some.injEq, Prod.mk.injEq] at h
    obtain ⟨hdrained, rfl, rfl⟩ := h
    have hover := Link.isOver_iff.1 (ht.drained hdrained)
    exact ⟨⟨ht.size, fun _ => Link.isOver_iff.2 ⟨rfl, hover.2⟩⟩, rfl, rfl⟩
  · cases h

theorem Live.moves (ht : t.Live) (h : t.Moves t') :
    t'.Live ∧ t'.input.isOpen = t.input.isOpen := by
  induction h with
  | refl => exact ⟨ht, rfl⟩
  | tail _ hstep ih =>
      obtain ⟨a, passage, hstep⟩ := hstep
      obtain ⟨hlive, hopen, -⟩ := ih.1.step hstep
      exact ⟨hlive, hopen.trans ih.2⟩

theorem moves_sent (hread : t.input.isRead = true) : t.Moves { t with unsent := [] } := by
  generalize hunsent : t.unsent = unsent
  induction unsent generalizing t with
  | nil =>
      rw [← hunsent]
      exact .refl
  | cons m unsent ih =>
      have hsend : t.step .send = some ({ t with unsent := unsent }, .metric m) := by
        simp [step, hread, hunsent]
      exact (moves_of_step hsend).trans (ih (t := { t with unsent := unsent }) hread rfl)

/-- The aggregators can take all that waits for them. -/
theorem exists_ready (hread : t.input.isRead = true) : ∃ t', t.Moves t' ∧
    t'.input.isRead = true ∧ t'.input.queue = [] ∧ t'.unsent = [] := by
  generalize hn : t.input.queue.length = n
  induction n generalizing t with
  | zero => exact ⟨_, moves_sent hread, hread, List.length_eq_zero_iff.1 hn, rfl⟩
  | succ n ih =>
      obtain ⟨m, rest, hqueue⟩ := List.exists_cons_of_length_eq_add_one hn
      let t₁ : AggregatorTask :=
        { t with input := { t.input with queue := rest }, unsent := [] }.handle default (.metric m)
      have htake : ({ t with unsent := [] } : AggregatorTask).step (.take default) =
          some (t₁, .nothing) := by
        simp [step, hread, hqueue, t₁]
      have hrest : rest.length = n := by simpa [hqueue] using hn
      obtain ⟨t', hmoves, hready⟩ := ih (t := t₁) hread hrest
      exact ⟨t', ((moves_sent hread).trans (moves_of_step htake)).trans hmoves, hready⟩

theorem Live.exists_ended (ht : t.Live) (hread : t.input.isRead = true)
    (hopen : t.input.isOpen = false) : ∃ t', t.Moves t' ∧ t'.input.isRead = false := by
  obtain ⟨t₁, hmoves, hread₁, hqueue, hunsent⟩ := exists_ready hread
  have hover : t₁.input.isOver = true :=
    Link.isOver_iff.2 ⟨hqueue, (ht.moves hmoves).2.trans hopen⟩
  -- Only what has not pushed a last time does so.
  obtain ⟨t₂, hmoves₂, hread₂, hdrained, hunsent₂⟩ : ∃ t₂, t₁.Moves t₂ ∧ t₂.input.isRead = true ∧
      t₂.drained = true ∧ t₂.unsent = [] := by
    cases hdrained : t₁.drained with
    | true => exact ⟨t₁, .refl, hread₁, hdrained, hunsent⟩
    | false =>
        have hdrain : t₁.step (.drain default) =
            some ({ t₁ with drained := true }.handle default .stop, .nothing) := by
          simp [AggregatorTask.step, hread₁, hunsent, hover, hdrained]
        exact ⟨_, (moves_of_step hdrain).trans (moves_sent hread₁), hread₁, rfl, rfl⟩
  have hfinish : t₂.step .finish = some ({ t₂ with input := t₂.input.leave }, .finish) := by
    simp [AggregatorTask.step, hread₂, hunsent₂, hdrained]
  exact ⟨_, (hmoves.trans hmoves₂).trans (moves_of_step hfinish), rfl⟩

end AggregatorTask

/-! ### The fan-out -/

namespace FanOut

def Moves : FanOut → FanOut → Prop := ReflTransGen fun f f' => ∃ a, f.step a = some f'

variable {f f' : FanOut} {a : FanAction}

theorem moves_of_step (h : f.step a = some f') : f.Moves f' := .single ⟨a, h⟩

theorem input_step (h : f.step a = some f') :
    f'.input.size = f.input.size ∧ f'.input.isOpen = f.input.isOpen := by
  cases a with
  | take =>
      simp only [step] at h
      split at h <;> cases h
      exact ⟨rfl, rfl⟩
  | hand =>
      simp only [step] at h
      split at h
      · split at h <;> cases h <;> exact ⟨rfl, rfl⟩
      · cases h
  | finish =>
      simp only [step, Option.ite_none_right_eq_some, Option.some.injEq] at h
      obtain ⟨-, rfl⟩ := h
      exact ⟨rfl, rfl⟩

theorem isOpen_moves (h : f.Moves f') : f'.input.isOpen = f.input.isOpen := by
  induction h with
  | refl => rfl
  | tail _ hstep ih =>
      obtain ⟨a, hstep⟩ := hstep
      exact (input_step hstep).2.trans ih

/-- A metric reaches all outputs, from the one on that is next. -/
theorem exists_handed (m : Metric) (i : Nat) (h : f.handing = some (m, i)) :
    ∃ f', f.Moves f' ∧ f'.handing = none ∧ f'.input = f.input := by
  generalize hn : f.outputs.length - i = n
  induction n generalizing f i with
  | zero =>
      have hnone : f.outputs[i]? = none := List.getElem?_eq_none (by omega)
      have hhand : f.step .hand = some { f with handing := none } := by simp [step, h, hnone]
      exact ⟨_, moves_of_step hhand, rfl, rfl⟩
  | succ n ih =>
      have hi : i < f.outputs.length := by omega
      let f₁ : FanOut := { f with
        handing := some (m, i + 1), outputs := f.outputs.set i ((f.outputs[i]).offer m) }
      have hhand : f.step .hand = some f₁ := by simp [step, h, List.getElem?_eq_getElem hi, f₁]
      have hrest : f₁.outputs.length - (i + 1) = n := by
        have hlength : f₁.outputs.length = f.outputs.length := List.length_set
        omega
      obtain ⟨f', hmoves, hdone, hinput⟩ := ih (i + 1) rfl hrest
      exact ⟨f', (moves_of_step hhand).trans hmoves, hdone, hinput⟩

theorem exists_idle (f : FanOut) : ∃ f', f.Moves f' ∧ f'.handing = none ∧ f'.input = f.input := by
  cases h : f.handing with
  | none => exact ⟨f, .refl, h, rfl⟩
  | some next => exact exists_handed next.1 next.2 h

/-- The fan-out can take all that waits for it. -/
theorem exists_ready (f : FanOut) :
    ∃ f', f.Moves f' ∧ f'.input.queue = [] ∧ f'.handing = none := by
  generalize hn : f.input.queue.length = n
  induction n generalizing f with
  | zero =>
      obtain ⟨f', hmoves, hdone, hinput⟩ := f.exists_idle
      exact ⟨f', hmoves, hinput ▸ List.length_eq_zero_iff.1 hn, hdone⟩
  | succ n ih =>
      obtain ⟨f₁, hmoves, hdone, hinput⟩ := f.exists_idle
      obtain ⟨m, rest, hqueue⟩ := List.exists_cons_of_length_eq_add_one (hinput ▸ hn)
      let f₂ : FanOut := { f₁ with
        input := { f₁.input with queue := rest }, handing := some (m, 0) }
      have htake : f₁.step .take = some f₂ := by simp [step, hdone, hqueue, f₂]
      have hrest : f₂.input.queue.length = n := by simpa [← hinput, hqueue] using hn
      obtain ⟨f', hmoves', hready⟩ := ih f₂ hrest
      exact ⟨f', (hmoves.trans (moves_of_step htake)).trans hmoves', hready⟩

theorem exists_ended (hopen : f.input.isOpen = false) :
    ∃ f', f.Moves f' ∧ f'.input.isRead = false := by
  obtain ⟨f₁, hmoves, hqueue, hdone⟩ := f.exists_ready
  have hover : f₁.input.isOver = true :=
    Link.isOver_iff.2 ⟨hqueue, (isOpen_moves hmoves).trans hopen⟩
  have hfinish : f₁.step .finish = some { f₁ with input := f₁.input.leave } := by
    simp [step, hdone, hover]
  exact ⟨_, hmoves.trans (moves_of_step hfinish), rfl⟩

end FanOut

end MetricAgent
