import MetricAgent.Proofs.Lists
import MetricAgent.Proofs.Pipeline.Draining

/-!
# Tasks can always end

The tasks of a pipeline send to one another over bounded links, so each may have
to wait for those behind it. They never wait for each other in a circle:
whatever waits at the first link can be drained, since the tasks behind it can be
drained whenever they have to make room (`Tasks.Live.exists_ready`). Once nothing
more can arrive, they can end one after the other (`Tasks.Live.exists_ended`).

With that the sources can get rid of what they have left and end as well
(`Tasks.Fed.exists_ended`).
-/

namespace MetricAgent

open Relation (ReflTransGen)

namespace Tasks

def cons (s : StageTask) (t : Tasks) : Tasks := { t with stages := s :: t.stages }

/-- The link before the first task that is not a source. -/
def front (t : Tasks) : Link :=
  match t.stages, t.aggregation with
  | s :: _, _ => s.input
  | [], some a => a.input
  | [], none => t.fan.input

/-- The task behind each link can be drained, and the link is open just as long
as the task before it has not ended. -/
inductive Live : Tasks → Prop where
  | outputs {sources : List SourceTask} {f : FanOut} (hf : 0 < f.input.size) :
      Live ⟨sources, [], none, f⟩
  | aggregators {sources : List SourceTask} {a : AggregatorTask} {f : FanOut} (ha : a.Live)
      (hf : 0 < f.input.size) (hopen : f.input.isOpen = a.input.isRead) :
      Live ⟨sources, [], some a, f⟩
  | stage {s : StageTask} {t : Tasks} (hs : s.Live) (ht : t.Live)
      (hopen : t.front.isOpen = s.input.isRead) : Live (t.cons s)

variable {t t' u : Tasks} {s s' : StageTask} {a : TaskAction} {passage : Passage}

theorem Live.withSources (h : t.Live) (sources : List SourceTask) :
    { t with sources := sources }.Live ∧
      ({ t with sources := sources } : Tasks).front = t.front := by
  induction h with
  | outputs hf => exact ⟨.outputs hf, rfl⟩
  | aggregators ha hf hopen => exact ⟨.aggregators ha hf hopen, rfl⟩
  | stage hs _ hopen ih => exact ⟨.stage hs ih.1 (ih.2 ▸ hopen), rfl⟩

theorem Live.withOutputs (h : t.Live) (outputs : List OutputTask) :
    { t with fan := { t.fan with outputs := outputs } }.Live ∧
      ({ t with fan := { t.fan with outputs := outputs } } : Tasks).front.isOpen =
        t.front.isOpen := by
  induction h with
  | outputs hf => exact ⟨.outputs hf, rfl⟩
  | aggregators ha hf hopen => exact ⟨.aggregators ha hf hopen, rfl⟩
  | stage hs _ hopen ih => exact ⟨.stage hs ih.1 (ih.2.trans hopen), rfl⟩

/-! ### What reaches the first link -/

theorem front_size (h : t.Live) : 0 < t.front.size := by
  cases h with
  | outputs hf => exact hf
  | aggregators ha => exact ha.size
  | stage hs => exact hs.size

theorem exists_pass (h : t.Live) (hready : t.front.Ready) (passage : Passage) :
    ∃ t', t.pass? 0 passage = some t' := by
  obtain ⟨l, hl⟩ := hready.exists_pass (front_size h) passage
  cases h with
  | outputs | aggregators | stage => exact ⟨_, Option.map_eq_some_iff.2 ⟨l, hl, rfl⟩⟩

/-- A sender can be dropped at any time. -/
theorem exists_pass_finish (t : Tasks) : ∃ t', t.pass? 0 .finish = some t' := by
  simp only [pass?, passOn?, passOut?, Link.pass?]
  split
  · exact ⟨_, rfl⟩
  · split <;> exact ⟨_, rfl⟩

/-- Neither the sources nor the number of the stages have changed. -/
structure Kept (t t' : Tasks) : Prop where
  sources : t'.sources = t.sources
  length : t'.stages.length = t.stages.length

theorem Live.pass (h : t.Live) (hopen : t.front.isOpen = true)
    (hpass : t.pass? 0 passage = some t') :
    t'.Live ∧ t'.front.isOpen = passage.keepsSender ∧ t.Kept t' := by
  cases h with
  | outputs hf =>
      obtain ⟨l, hl, rfl⟩ := Option.map_eq_some_iff.1 hpass
      exact ⟨.outputs ((Link.pass?_kept hl).1 ▸ hf), Link.isOpen_of_pass hopen hl, rfl, rfl⟩
  | aggregators ha hf hlink =>
      obtain ⟨l, hl, rfl⟩ := Option.map_eq_some_iff.1 hpass
      exact ⟨.aggregators (ha.pass hopen hl) hf (hlink.trans (Link.pass?_kept hl).2.2.symm),
        Link.isOpen_of_pass hopen hl, rfl, rfl⟩
  | stage hs ht hlink =>
      obtain ⟨l, hl, rfl⟩ := Option.map_eq_some_iff.1 hpass
      exact ⟨.stage (hs.pass hopen hl) ht (hlink.trans (Link.pass?_kept hl).2.2.symm),
        Link.isOpen_of_pass hopen hl, rfl, rfl⟩

/-! ### Actions of the tasks behind the sources -/

theorem pass?_cons (i : Nat) :
    (t.cons s).pass? (i + 1) passage = (t.pass? i passage).map (cons s) := by
  obtain ⟨sources, stages, aggregation, fan⟩ := t
  have hget : (cons s ⟨sources, stages, aggregation, fan⟩).stages[i + 1]? = stages[i]? := rfl
  unfold pass?
  rw [hget]
  cases stages[i]? with
  | some s' =>
      simp only [Option.map_map]
      rfl
  | none =>
      cases aggregation with
      | some a =>
          simp only [passOn?, cons, Option.map_map]
          rfl
      | none =>
          simp only [passOn?, passOut?, cons, Option.map_map]
          rfl

/-- The action of the same task, if there is one more stage before all. -/
def behind : TaskAction → TaskAction
  | .stage i a => .stage (i + 1) a
  | a => a

def isOfSource : TaskAction → Bool
  | .source .. => true
  | _ => false

theorem step_behind (ha : isOfSource a = false) :
    (t.cons s).step (behind a) = (t.step a).map (cons s) := by
  cases a with
  | source => cases ha
  | stage i a =>
      have hget : (t.cons s).stages[i + 1]? = t.stages[i]? := rfl
      simp only [behind, step, hget]
      cases t.stages[i]? with
      | none => rfl
      | some s₀ =>
          cases h : s₀.step a with
          | none => simp [h]
          | some next =>
              simp only [Option.bind_eq_bind, Option.bind_some, h]
              exact pass?_cons (t := { t with stages := t.stages.set i next.1 }) (i + 1)
  | aggregators a =>
      simp only [behind, step, cons]
      cases t.aggregation with
      | none => rfl
      | some a₀ =>
          cases h : a₀.step a with
          | none => simp [h]
          | some next =>
              simp only [Option.bind_eq_bind, Option.bind_some, h, passOut?, Option.map_map]
              rfl
  | fanOut a =>
      simp only [behind, step, cons, Option.map_map]
      rfl

theorem exists_behind (ha : isOfSource a = false) (h : (t.cons s).step a = some t') :
    (∃ b, a = .stage 0 b) ∨ ∃ b u, isOfSource b = false ∧ t.step b = some u ∧ t' = u.cons s := by
  have hbehind (b : TaskAction) (hb : isOfSource b = false)
      (h : (t.cons s).step (behind b) = some t') :
      ∃ b u, isOfSource b = false ∧ t.step b = some u ∧ t' = u.cons s := by
    rw [step_behind hb] at h
    obtain ⟨u, hu, rfl⟩ := Option.map_eq_some_iff.1 h
    exact ⟨b, u, hb, hu, rfl⟩
  cases a with
  | source => cases ha
  | stage i b =>
      cases i with
      | zero => exact .inl ⟨b, rfl⟩
      | succ i => exact .inr (hbehind (.stage i b) rfl h)
  | aggregators b => exact .inr (hbehind (.aggregators b) rfl h)
  | fanOut b => exact .inr (hbehind (.fanOut b) rfl h)

theorem step_first {b : StageAction} (hstep : s.step b = some (s', passage))
    (hpass : t.pass? 0 passage = some t') : (t.cons s).step (.stage 0 b) = some (t'.cons s') := by
  have hget : (t.cons s).stages[0]? = some s := rfl
  have hrest : ({ t.cons s with stages := (t.cons s).stages.set 0 s' } : Tasks) = t.cons s' := rfl
  simp only [step, hget, hstep, Option.bind_eq_bind, Option.bind_some]
  rw [hrest, pass?_cons, hpass]
  rfl

theorem Kept.cons (h : t.Kept t') : (t.cons s).Kept (t'.cons s') :=
  ⟨h.sources, congrArg (· + 1) h.length⟩

theorem Live.step (h : t.Live) (ha : isOfSource a = false) (hstep : t.step a = some t') :
    t'.Live ∧ t'.front.isOpen = t.front.isOpen ∧ t.Kept t' := by
  induction h generalizing a t' with
  | outputs hf =>
      cases a with
      | source => cases ha
      | stage => cases hstep
      | aggregators => cases hstep
      | fanOut a =>
          obtain ⟨f', hf', rfl⟩ := Option.map_eq_some_iff.1 hstep
          obtain ⟨hsize, hopen⟩ := FanOut.input_step hf'
          exact ⟨.outputs (hsize ▸ hf), hopen, rfl, rfl⟩
  | @aggregators sources a₀ f hlive hf hlink =>
      cases a with
      | source => cases ha
      | stage => cases hstep
      | aggregators a =>
          simp only [Tasks.step, Option.bind_eq_bind, Option.bind_some, Option.bind_eq_some_iff]
            at hstep
          obtain ⟨⟨a₁, passage⟩, ha₁, hpass⟩ := hstep
          obtain ⟨hlive₁, hopen₁, hread₁⟩ := hlive.step ha₁
          obtain ⟨l, hl, rfl⟩ := Option.map_eq_some_iff.1 hpass
          have hisOpen : f.input.isOpen = true := hlink.trans (AggregatorTask.isRead_of_step ha₁)
          refine ⟨.aggregators hlive₁ ((Link.pass?_kept hl).1 ▸ hf) ?_, hopen₁, rfl, rfl⟩
          exact (Link.isOpen_of_pass hisOpen hl).trans hread₁.symm
      | fanOut a =>
          obtain ⟨f', hf', rfl⟩ := Option.map_eq_some_iff.1 hstep
          obtain ⟨hsize, hopen⟩ := FanOut.input_step hf'
          exact ⟨.aggregators hlive (hsize ▸ hf) (hopen.trans hlink), rfl, rfl, rfl⟩
  | @stage s t hs ht hlink ih =>
      rcases exists_behind ha hstep with ⟨b, rfl⟩ | ⟨b, u, hb, hu, rfl⟩
      · simp only [Tasks.step, Option.bind_eq_bind, Option.bind_eq_some_iff] at hstep
        obtain ⟨s₀, hs₀, ⟨s', passage⟩, hs', hpass⟩ := hstep
        cases hs₀
        have hstep' := StageTask.Step.of_step hs'
        obtain ⟨-, hopen', hread'⟩ := hstep'.input_eq
        have hrest : ({ t.cons s with stages := (t.cons s).stages.set 0 s' } : Tasks) = t.cons s' :=
          rfl
        rw [hrest, pass?_cons] at hpass
        obtain ⟨u, hu, rfl⟩ := Option.map_eq_some_iff.1 hpass
        obtain ⟨hlive, hfront, hkept⟩ := ht.pass (hlink.trans hstep'.isRead) hu
        exact ⟨.stage (hs.step hstep') hlive (hfront.trans hread'.symm), hopen', hkept.cons⟩
      · obtain ⟨hlive, hfront, hkept⟩ := ih hb hu
        exact ⟨.stage hs hlive (hfront.trans hlink), rfl, hkept.cons⟩

/-! ### What the tasks behind the sources can do -/

/-- Some actions of the tasks behind the sources lead from one state to the
other. -/
def Moves : Tasks → Tasks → Prop :=
  ReflTransGen fun t t' => ∃ a, isOfSource a = false ∧ t.step a = some t'

theorem moves_of_step (ha : isOfSource a = false) (h : t.step a = some t') : t.Moves t' :=
  .single ⟨a, ha, h⟩

theorem Kept.trans (h : t.Kept t') (h' : t'.Kept u) : t.Kept u :=
  ⟨h'.sources.trans h.sources, h'.length.trans h.length⟩

theorem Live.moves (h : t.Live) (hmoves : t.Moves t') :
    t'.Live ∧ t'.front.isOpen = t.front.isOpen ∧ t.Kept t' := by
  induction hmoves with
  | refl => exact ⟨h, rfl, rfl, rfl⟩
  | tail _ hstep ih =>
      obtain ⟨hlive, hopen, hkept⟩ := ih
      obtain ⟨a, ha, hstep⟩ := hstep
      obtain ⟨hlive', hopen', hkept'⟩ := hlive.step ha hstep
      exact ⟨hlive', hopen'.trans hopen, hkept.trans hkept'⟩

theorem Moves.cons (h : t.Moves t') : (t.cons s).Moves (t'.cons s) := by
  refine ReflTransGen.lift (Tasks.cons s) (fun u u' => ?_) _ _ h
  rintro ⟨a, ha, hstep⟩
  refine ⟨behind a, ?_, by rw [step_behind ha, hstep]; rfl⟩
  cases a with
  | source => cases ha
  | _ => rfl

theorem moves_fanOut {f : FanOut} (h : t.fan.Moves f) : t.Moves { t with fan := f } := by
  refine ReflTransGen.lift (fun f : FanOut => ({ t with fan := f } : Tasks)) (fun f f' => ?_) _ _ h
  rintro ⟨a, hstep⟩
  exact ⟨.fanOut a, rfl, Option.map_eq_some_iff.2 ⟨f', hstep, rfl⟩⟩

/-- What the aggregators do can happen among the tasks, for the fan-out makes
room when they need some. -/
theorem exists_moves_aggregators {sources : List SourceTask} {a a' : AggregatorTask} {f : FanOut}
    (h : Live ⟨sources, [], some a, f⟩) (ha : a.Moves a') :
    ∃ f', Moves ⟨sources, [], some a, f⟩ ⟨sources, [], some a', f'⟩ := by
  induction ha with
  | refl => exact ⟨f, .refl⟩
  | @tail a₁ a₂ _ hstep ih =>
      obtain ⟨f₁, hmoves⟩ := ih
      obtain ⟨b, passage, hb⟩ := hstep
      obtain ⟨f₂, hdrained, hqueue, -⟩ := f₁.exists_ready
      have hpath := hmoves.trans (moves_fanOut (t := ⟨sources, [], some a₁, f₁⟩) hdrained)
      have hsize : 0 < f₂.input.size := by
        cases (h.moves hpath).1 with
        | aggregators _ hf _ => exact hf
      obtain ⟨l, hl⟩ := Link.Ready.exists_pass (.inr hqueue) hsize passage
      refine ⟨{ f₂ with input := l }, hpath.trans (moves_of_step (a := .aggregators b) rfl ?_)⟩
      simp only [Tasks.step, Option.bind_eq_bind, Option.bind_some, hb]
      exact Option.map_eq_some_iff.2 ⟨l, hl, rfl⟩

theorem live_cons (h : (t.cons s).Live) : s.Live ∧ t.Live ∧ t.front.isOpen = s.input.isRead := by
  generalize hu : t.cons s = u at h
  cases h with
  | outputs | aggregators => simp [Tasks.cons] at hu
  | @stage s₁ t₁ hs ht hopen =>
      obtain ⟨sources, stages, aggregation, fan⟩ := t
      obtain ⟨sources₁, stages₁, aggregation₁, fan₁⟩ := t₁
      simp only [Tasks.cons, Tasks.mk.injEq, List.cons.injEq] at hu
      obtain ⟨rfl, ⟨rfl, rfl⟩, rfl, rfl⟩ := hu
      exact ⟨hs, ht, hopen⟩

/-- What a stage does can happen among the tasks, if those behind it can always
make room. -/
theorem exists_moves_stage
    (hroom : ∀ u : Tasks, u.Live → u.stages.length = t.stages.length →
      ∃ u', u.Moves u' ∧ u'.front.Ready)
    (h : (t.cons s).Live) (hs : s.Moves s') : ∃ t' : Tasks, (t.cons s).Moves (t'.cons s') := by
  induction hs with
  | refl => exact ⟨t, .refl⟩
  | @tail s₁ s₂ _ hstep ih =>
      obtain ⟨t₁, hmoves⟩ := ih
      obtain ⟨passage, hstep⟩ := hstep
      obtain ⟨b, hb⟩ := hstep.exists_step
      obtain ⟨hlive, -, hkept⟩ := h.moves hmoves
      obtain ⟨-, ht₁, -⟩ := live_cons hlive
      obtain ⟨t₂, hdrained, hready⟩ := hroom t₁ ht₁ (Nat.succ.inj hkept.length)
      obtain ⟨t₃, hpass⟩ := exists_pass (ht₁.moves hdrained).1 hready passage
      have hact := moves_of_step (a := .stage 0 b) rfl (step_first hb hpass)
      exact ⟨t₃, (hmoves.trans hdrained.cons).trans hact⟩

/-- The tasks behind the sources can always make room for what these send. -/
theorem Live.exists_ready (h : t.Live) : ∃ t', t.Moves t' ∧ t'.front.Ready := by
  induction hn : t.stages.length using Nat.strongRecOn generalizing t with
  | _ n ih =>
  cases h with
  | @outputs sources f =>
      obtain ⟨f', hmoves, hqueue, -⟩ := f.exists_ready
      exact ⟨_, moves_fanOut (t := ⟨sources, [], none, f⟩) hmoves, .inr hqueue⟩
  | @aggregators sources a f ha hf hlink =>
      cases hread : a.input.isRead with
      | false => exact ⟨_, .refl, .inl hread⟩
      | true =>
          obtain ⟨a', hmoves, -, hqueue, -⟩ := AggregatorTask.exists_ready hread
          obtain ⟨f', hpath⟩ := exists_moves_aggregators (.aggregators ha hf hlink) hmoves
          exact ⟨_, hpath, .inr hqueue⟩
  | @stage s t hs ht hlink =>
      have hroom (u : Tasks) (hu : u.Live) (hlength : u.stages.length = t.stages.length) :
          ∃ u', u.Moves u' ∧ u'.front.Ready :=
        ih u.stages.length (by rw [← hn, hlength]; exact Nat.lt_succ_self _) hu rfl
      obtain ⟨s', hmoves, hready⟩ := hs.exists_ready
      obtain ⟨t', hpath⟩ := exists_moves_stage hroom (.stage hs ht hlink) hmoves
      exact ⟨t'.cons s', hpath, hready.imp_right And.left⟩

/-- Once nothing more can arrive, the tasks behind the sources can all end. -/
theorem Live.exists_ended (h : t.Live) (hopen : t.front.isOpen = false) :
    ∃ t', t.Moves t' ∧ t'.ended = true := by
  induction hn : t.stages.length using Nat.strongRecOn generalizing t with
  | _ n ih =>
  cases h with
  | @outputs sources f hf =>
      obtain ⟨f', hmoves, hread⟩ := FanOut.exists_ended hopen
      exact ⟨_, moves_fanOut (t := ⟨sources, [], none, f⟩) hmoves, by simp [ended, hread]⟩
  | @aggregators sources a f ha hf hlink =>
      have hlive : Live ⟨sources, [], some a, f⟩ := .aggregators ha hf hlink
      obtain ⟨a', f', hpath, hread⟩ : ∃ a' f', Moves ⟨sources, [], some a, f⟩
          ⟨sources, [], some a', f'⟩ ∧ a'.input.isRead = false := by
        cases hread : a.input.isRead with
        | false => exact ⟨a, f, .refl, hread⟩
        | true =>
            obtain ⟨a', hmoves, hended⟩ := ha.exists_ended hread hopen
            obtain ⟨f', hpath⟩ := exists_moves_aggregators hlive hmoves
            exact ⟨a', f', hpath, hended⟩
      have hclosed : f'.input.isOpen = false := by
        cases (hlive.moves hpath).1 with
        | aggregators _ _ hlink' => exact hlink'.trans hread
      obtain ⟨f'', hmoves, hended⟩ := FanOut.exists_ended hclosed
      exact ⟨_, hpath.trans (moves_fanOut (t := ⟨sources, [], some a', f'⟩) hmoves),
        by simp [ended, hread, hended]⟩
  | @stage s t hs ht hlink =>
      have hlive : (t.cons s).Live := .stage hs ht hlink
      obtain ⟨s', hmoves, hread⟩ := hs.exists_ended hopen
      obtain ⟨t', hpath⟩ := exists_moves_stage (fun _ hu _ => hu.exists_ready) hlive hmoves
      obtain ⟨hlive', -, hkept⟩ := hlive.moves hpath
      obtain ⟨-, ht', hlink'⟩ := live_cons hlive'
      have hlength : t'.stages.length < n := by
        rw [← hn, Nat.succ.inj hkept.length]
        exact Nat.lt_succ_self _
      obtain ⟨t'', hrest, hended⟩ := ih _ hlength ht' (hlink'.trans hread) rfl
      refine ⟨t''.cons s', hpath.trans hrest.cons, ?_⟩
      simp only [ended, Bool.and_eq_true, cons, List.all_cons, hread] at hended ⊢
      simpa using hended

/-! ### The sources -/

end Tasks

namespace SourceTask

variable {s s' : SourceTask} {a : SourceAction} {passage : Passage}

/-- The task of a source that has ended has nothing left to send. -/
def Settled (s : SourceTask) : Prop := s.ended = true → s.unsent = []

theorem Settled.step (h : s.Settled) (hstep : s.step a = some (s', passage)) :
    s'.Settled ∧ s.ended = false ∧ s'.ended = !passage.keepsSender := by
  cases a with
  | gather clock now =>
      simp only [SourceTask.step, Option.ite_none_left_eq_some, Bool.or_eq_true, not_or,
        Bool.not_eq_true, Option.some.injEq, Prod.mk.injEq] at hstep
      obtain ⟨⟨hended, -⟩, rfl, rfl⟩ := hstep
      exact ⟨fun h => absurd h (by simp [hended]), hended, hended⟩
  | send =>
      simp only [SourceTask.step] at hstep
      split at hstep
      · next m rest hunsent =>
        cases hstep
        have hended : s.ended = false := by
          rw [Bool.eq_false_iff]
          intro h'
          rw [h h'] at hunsent
          cases hunsent
        exact ⟨fun h => absurd h (by simp [hended]), hended, hended⟩
      · cases hstep
  | stop =>
      simp only [SourceTask.step, Option.ite_none_left_eq_some, Bool.or_eq_true, not_or,
        Bool.not_eq_true, Bool.not_eq_false', List.isEmpty_iff, Option.some.injEq, Prod.mk.injEq]
        at hstep
      obtain ⟨⟨hended, hunsent⟩, rfl, rfl⟩ := hstep
      exact ⟨fun _ => hunsent, hended, rfl⟩

end SourceTask

namespace Tasks

variable {t t' u : Tasks} {s s' : SourceTask} {a : TaskAction} {passage : Passage}

/-- The first link is open just as long as a source has not ended. -/
structure Fed (t : Tasks) : Prop where
  live : t.Live
  isOpen : t.front.isOpen = !t.sourcesEnded
  settled : ∀ s ∈ t.sources, s.Settled

theorem keepsSender_fromSource (h : t.sourcesEnded = true → passage.keepsSender = false) :
    (t.fromSource passage).keepsSender = !t.sourcesEnded := by
  cases passage with
  | finish =>
      simp only [fromSource]
      cases t.sourcesEnded <;> rfl
  | nothing | metric =>
      have hended : t.sourcesEnded = false := by
        rw [Bool.eq_false_iff]
        exact fun hended => Bool.noConfusion (h hended)
      rw [hended]
      rfl

theorem Fed.step (h : t.Fed) (hstep : t.step a = some t') : t'.Fed := by
  cases hsource : isOfSource a with
  | false =>
      obtain ⟨hlive, hopen, hkept⟩ := h.live.step hsource hstep
      refine ⟨hlive, ?_, hkept.sources ▸ h.settled⟩
      rw [hopen, h.isOpen, sourcesEnded, sourcesEnded, hkept.sources]
  | true =>
      cases a with
      | stage | aggregators | fanOut => cases hsource
      | source i a =>
          simp only [Tasks.step, Option.bind_eq_bind, Option.bind_eq_some_iff] at hstep
          obtain ⟨s, hs, ⟨s', passage⟩, hs', hpass⟩ := hstep
          have hmem : s ∈ t.sources := List.mem_of_getElem? hs
          obtain ⟨hsettled, hbefore, hafter⟩ := (h.settled s hmem).step hs'
          let t₁ : Tasks := { t with sources := t.sources.set i s' }
          obtain ⟨hlive, hfront⟩ := h.live.withSources (t.sources.set i s')
          have hrunning : t.sourcesEnded = false := by
            rw [Bool.eq_false_iff]
            intro hall
            rw [List.all_eq_true.1 hall s hmem] at hbefore
            cases hbefore
          have hopen : t₁.front.isOpen = true := by
            rw [hfront, h.isOpen, hrunning]
            rfl
          have hnew : s' ∈ t₁.sources := List.mem_set (List.getElem?_eq_some_iff.1 hs).1 s'
          have hkeeps : (t₁.fromSource passage).keepsSender = !t₁.sourcesEnded := by
            refine keepsSender_fromSource fun hall => ?_
            have hended := List.all_eq_true.1 hall s' hnew
            rw [hafter] at hended
            simpa using hended
          obtain ⟨hlive', hopen', hkept⟩ := hlive.pass hopen hpass
          refine ⟨hlive', ?_, ?_⟩
          · rw [hopen', hkeeps, sourcesEnded, sourcesEnded, hkept.sources]
          · rw [hkept.sources]
            exact forall_mem_set h.settled hsettled i

theorem live_start {channelSize : Nat} (hsize : 0 < channelSize) {p : Pipeline}
    (hp : ∀ stage ∈ p.processors, stage.IsMade) :
    (start channelSize p).Live ∧ (start channelSize p).front.isOpen = true := by
  unfold start
  generalize p.processors = stages at hp
  induction stages with
  | nil =>
      cases haggregators : p.aggregators.isEmpty with
      | true => exact ⟨.outputs hsize, rfl⟩
      | false =>
          exact ⟨.aggregators (AggregatorTask.live_start hsize p.aggregators) hsize rfl, rfl⟩
  | cons stage stages ih =>
      obtain ⟨hstage, hstages⟩ := List.forall_mem_cons.1 hp
      obtain ⟨processor, workers, ordered, queueSize, rfl⟩ := hstage
      obtain ⟨hlive, hopen⟩ := ih hstages
      have hread : (StageTask.start channelSize
          (.make processor workers ordered queueSize)).input = .make channelSize := by
        unfold StageTask.start
        split <;> rfl
      refine ⟨.stage (StageTask.live_start processor hsize) hlive ?_, ?_⟩
      · rw [hread]
        exact hopen
      · exact congrArg Link.isOpen hread

def Runs : Tasks → Tasks → Prop := ReflTransGen fun t t' => ∃ a, t.step a = some t'

theorem Moves.runs (h : t.Moves t') : t.Runs t' :=
  ReflTransGen.mono (fun _ _ ⟨a, _, hstep⟩ => ⟨a, hstep⟩) _ _ h

theorem Fed.runs (h : t.Fed) (hruns : t.Runs t') : t'.Fed := by
  induction hruns with
  | refl => exact h
  | tail _ hstep ih =>
      obtain ⟨a, hstep⟩ := hstep
      exact ih.step hstep

theorem sources_pass {i : Nat} (h : t.pass? i passage = some t') : t'.sources = t.sources := by
  simp only [pass?, passOn?, passOut?] at h
  split at h
  · obtain ⟨l, -, rfl⟩ := Option.map_eq_some_iff.1 h
    rfl
  · split at h
    · obtain ⟨l, -, rfl⟩ := Option.map_eq_some_iff.1 h
      rfl
    · obtain ⟨l, -, rfl⟩ := Option.map_eq_some_iff.1 h
      rfl

/-- What the task of a source can do next, it can do as soon as the tasks behind
have made room. -/
theorem Fed.exists_runs_source (h : t.Fed) {i : Nat} (hs : t.sources[i]? = some s)
    {b : SourceAction} (hstep : s.step b = some (s', passage)) :
    ∃ t', t.Runs t' ∧ t'.sources = t.sources.set i s' := by
  obtain ⟨t₁, hmoves, hready⟩ := h.live.exists_ready
  obtain ⟨hlive, -, hkept⟩ := h.live.moves hmoves
  obtain ⟨hlive', hfront⟩ := hlive.withSources (t.sources.set i s')
  let t₂ : Tasks := { t₁ with sources := t.sources.set i s' }
  obtain ⟨t₃, hpass⟩ := exists_pass (t := t₂) hlive' (hfront ▸ hready) (t₂.fromSource passage)
  have hact : t₁.step (.source i b) = some t₃ := by
    simp only [Tasks.step, hkept.sources, hs, Option.bind_eq_bind, Option.bind_some, hstep]
    exact hpass
  exact ⟨t₃, hmoves.runs.tail ⟨_, hact⟩, sources_pass hpass⟩

/-- A source sends what it has left, and ends. -/
theorem Fed.exists_source_ended (h : t.Fed) {i : Nat} (hs : t.sources[i]? = some s) :
    ∃ t' s', t.Runs t' ∧ t'.sources = t.sources.set i s' ∧ s'.ended = true := by
  generalize hunsent : s.unsent = unsent
  induction unsent generalizing t s with
  | nil =>
      cases hended : s.ended with
      | true =>
          obtain ⟨hi, rfl⟩ := List.getElem?_eq_some_iff.1 hs
          exact ⟨t, _, .refl, (List.set_getElem_self hi).symm, hended⟩
      | false =>
          have hstop : s.step .stop = some ({ s with ended := true }, .finish) := by
            simp [SourceTask.step, hended, hunsent]
          obtain ⟨t', hruns, hsources⟩ := h.exists_runs_source hs hstop
          exact ⟨t', _, hruns, hsources, rfl⟩
  | cons m unsent ih =>
      have hsend : s.step .send = some ({ s with unsent := unsent }, .metric m) := by
        simp [SourceTask.step, hunsent]
      obtain ⟨t₁, hruns, hsources⟩ := h.exists_runs_source hs hsend
      have hi : i < t.sources.length := (List.getElem?_eq_some_iff.1 hs).1
      have hs₁ : t₁.sources[i]? = some { s with unsent := unsent } := by
        rw [hsources, List.getElem?_set_self hi]
      obtain ⟨t', s', hruns', hsources', hended⟩ := ih (h.runs hruns) hs₁ rfl
      exact ⟨t', s', hruns.trans hruns', by rw [hsources', hsources, List.set_set], hended⟩

theorem Fed.exists_sources_ended (h : t.Fed) {k : Nat} (hk : k ≤ t.sources.length) :
    ∃ t', t.Runs t' ∧ t'.sources.length = t.sources.length ∧
      ∀ j < k, ∀ s, t'.sources[j]? = some s → s.ended = true := by
  induction k with
  | zero => exact ⟨t, .refl, rfl, nofun⟩
  | succ k ih =>
      obtain ⟨t₁, hruns, hlength, hbefore⟩ := ih (Nat.le_of_succ_le hk)
      have hget : t₁.sources[k]? = some t₁.sources[k] := List.getElem?_eq_getElem (by omega)
      obtain ⟨t₂, s₂, hruns', hsources, hended⟩ := (h.runs hruns).exists_source_ended hget
      refine ⟨t₂, hruns.trans hruns', by rw [hsources, List.length_set, hlength],
        fun j hj s hs => ?_⟩
      rw [hsources, List.getElem?_set] at hs
      split at hs
      · simp only [Option.ite_none_right_eq_some, Option.some.injEq] at hs
        rwa [← hs.2]
      · exact hbefore j (by omega) s hs

/-- All tasks can end, the sources first. -/
theorem Fed.exists_ended (h : t.Fed) :
    ∃ t', t.Runs t' ∧ t'.sourcesEnded = true ∧ t'.ended = true := by
  obtain ⟨t₁, hruns, hlength, hall⟩ := h.exists_sources_ended (Nat.le_refl _)
  have hended : t₁.sourcesEnded = true := by
    rw [sourcesEnded, List.all_eq_true]
    intro s hs
    obtain ⟨j, hj, rfl⟩ := List.mem_iff_getElem.1 hs
    exact hall j (hlength ▸ hj) _ (List.getElem?_eq_getElem hj)
  have hfed := h.runs hruns
  obtain ⟨t₂, hmoves, htasks⟩ := hfed.live.exists_ended (by rw [hfed.isOpen, hended]; rfl)
  have hkept := (hfed.live.moves hmoves).2.2
  exact ⟨t₂, hruns.trans hmoves.runs, by rwa [sourcesEnded, hkept.sources], htasks⟩

theorem Fed.withOutputs (h : t.Fed) (outputs : List OutputTask) :
    { t with fan := { t.fan with outputs := outputs } }.Fed := by
  obtain ⟨hlive, hopen⟩ := h.live.withOutputs outputs
  exact ⟨hlive, hopen.trans h.isOpen, h.settled⟩

end Tasks

end MetricAgent
