import MetricAgent.Pipeline.Service
import MetricAgent.Proofs.Pipeline.Delivery
import MetricAgent.Proofs.Pipeline.Runs
import MetricAgent.Proofs.Plugin.Integrity

/-!
# Sinks are handed well-formed metrics

A pipeline is `Intact` if its plugins are sound and if no metric at any place of
it is ill-formed. What is built from the plugins of the agent is intact, whatever
the configuration is. Every action of a task keeps the tasks intact
(`Tasks.Intact.step`), and so does everything that becomes due in a run, so no
sink is ever handed a metric without a name or a field, or one that holds a key
twice.
-/

namespace MetricAgent

/-- A source is sound, and so is the gather that it may be in. -/
structure ScheduledSource.Intact (s : ScheduledSource) : Prop where
  source : s.source.Sound
  gatherer : s.gatherer.Intact
  phase : ∀ stop work, s.phase = .gathering stop work → work.Sound

structure Pipeline.Intact (p : Pipeline) : Prop where
  sources : ∀ s ∈ p.sources, s.Intact
  processors : ∀ s ∈ p.processors, s.Intact
  aggregators : AggregatorStage.Intact p.aggregators
  outlets : ∀ o ∈ p.outlets, o.Intact

namespace Pipeline

variable {c : Config} {files : Files} {now : Duration} {p : Pipeline}

theorem intact_of_buildSource {settings : SourceConfig} {s : ScheduledSource}
    (h : buildSource c .builtin now settings = .ok s) : s.Intact := by
  obtain ⟨source, hsource, h⟩ := bind_eq_ok.1 h
  obtain ⟨filter, -, h⟩ := bind_eq_ok.1 h
  obtain ⟨ticker, -, h⟩ := bind_eq_ok.1 h
  cases h
  exact ⟨Registry.sound_source (mapError_eq_ok.1 hsource), Gatherer.intact_make _, nofun⟩

theorem intact_of_buildProcessor {settings : ProcessorConfig} {s : ProcessorStage}
    (h : buildProcessor .builtin settings = .ok s) : s.Intact := by
  obtain ⟨processor, hprocessor, h⟩ := bind_eq_ok.1 h
  cases h
  exact ProcessorStage.intact_make (Registry.sound_processor (mapError_eq_ok.1 hprocessor)) _ _ _

theorem intact_of_buildAggregator {settings : AggregatorConfig} {a : Running Aggregator}
    (h : buildAggregator c .builtin now settings = .ok a) : a.Intact := by
  obtain ⟨aggregator, haggregator, h⟩ := bind_eq_ok.1 h
  obtain ⟨filter, -, h⟩ := bind_eq_ok.1 h
  have hmade := mapError_eq_ok.1 h
  unfold Running.make at hmade
  split at hmade
  · cases hmade
  · cases hmade
    exact Registry.intact_aggregator (mapError_eq_ok.1 haggregator)

theorem intact_of_buildOutlet {settings : OutputConfig} {o : Outlet}
    (h : buildOutlet c .builtin files now settings = .ok o) : o.Intact := by
  obtain ⟨sink, hsink, h⟩ := bind_eq_ok.1 h
  obtain ⟨filter, -, h⟩ := bind_eq_ok.1 h
  obtain ⟨ticker, -, h⟩ := bind_eq_ok.1 h
  cases h
  have hscript := Registry.sound_sink (mapError_eq_ok.1 hsink) files
  have hrefusals := (sink.plan files).intact_refusals
  exact ⟨Output.intact_make _ _, List.forall_mem_append.2 ⟨hscript, hrefusals⟩, hrefusals⟩

theorem intact_of_build (h : build c .builtin files now = .ok p) : p.Intact := by
  obtain ⟨hsources, hprocessors, haggregators, houtlets⟩ := parts_of_build h
  constructor
  · intro s hs
    obtain ⟨settings, -, hmade⟩ := exists_of_mem_mapM hsources hs
    exact intact_of_buildSource hmade
  · intro s hs
    obtain ⟨settings, -, hmade⟩ := exists_of_mem_mapM hprocessors hs
    exact intact_of_buildProcessor hmade
  · intro a ha
    obtain ⟨settings, -, hmade⟩ := exists_of_mem_mapM haggregators ha
    exact intact_of_buildAggregator hmade
  · intro o ho
    obtain ⟨settings, -, hmade⟩ := exists_of_mem_mapM houtlets ho
    exact intact_of_buildOutlet hmade

end Pipeline

/-! ### Tasks that take turns -/

structure SourceTask.Intact (t : SourceTask) : Prop where
  source : t.source.Sound
  gatherer : t.gatherer.Intact
  unsent : ∀ m ∈ t.unsent, m.WellFormed

structure AggregatorTask.Intact (t : AggregatorTask) : Prop where
  input : t.input.Intact
  stage : AggregatorStage.Intact t.stage
  unsent : ∀ m ∈ t.unsent, m.WellFormed

structure FanOut.Intact (f : FanOut) : Prop where
  input : f.input.Intact
  handing : ∀ m i, f.handing = some (m, i) → m.WellFormed
  outputs : ∀ o ∈ f.outputs, o.Intact

structure Tasks.Intact (t : Tasks) : Prop where
  sources : ∀ s ∈ t.sources, s.Intact
  stages : ∀ s ∈ t.stages, s.Intact
  aggregation : ∀ a, t.aggregation = some a → a.Intact
  fan : t.fan.Intact

theorem SourceTask.Intact.step {t t' : SourceTask} {a : SourceAction} {passage : Passage}
    (h : t.Intact) (hstep : t.step a = some (t', passage)) : t'.Intact ∧ passage.Intact := by
  cases a with
  | gather clock now =>
      simp only [SourceTask.step, Option.ite_none_left_eq_some, Option.some.injEq,
        Prod.mk.injEq] at hstep
      obtain ⟨-, rfl, rfl⟩ := hstep
      have hgathered := h.gatherer.gather (h.source t.gatherer.gathers) clock now
      obtain ⟨hleft, hreceived⟩ := Accumulator.Intact.receive hgathered
      exact ⟨⟨h.source, hleft, hreceived⟩, Passage.intact_nothing⟩
  | send =>
      simp only [SourceTask.step] at hstep
      split at hstep
      · next m rest hunsent =>
        cases hstep
        obtain ⟨hm, hrest⟩ := List.forall_mem_cons.1 (hunsent ▸ h.unsent)
        exact ⟨⟨h.source, h.gatherer, hrest⟩, Passage.intact_metric hm⟩
      · cases hstep
  | stop =>
      simp only [SourceTask.step, Option.ite_none_left_eq_some, Option.some.injEq,
        Prod.mk.injEq] at hstep
      obtain ⟨-, rfl, rfl⟩ := hstep
      exact ⟨⟨h.source, h.gatherer, h.unsent⟩, Passage.intact_finish⟩

namespace AggregatorTask

variable {t t' : AggregatorTask} {a : AggregatorAction} {passage : Passage}

theorem Intact.handle (h : t.Intact) (now : Timestamp) {e : StageEvent}
    (he : ∀ m, e = .metric m → m.WellFormed) : (t.handle now e).Intact := by
  obtain ⟨hstage, hout⟩ := h.stage.step now he
  exact ⟨h.input, hstage, hout⟩

theorem Intact.step (h : t.Intact) (hstep : t.step a = some (t', passage)) :
    t'.Intact ∧ passage.Intact := by
  simp only [AggregatorTask.step, Option.ite_none_right_eq_some] at hstep
  obtain ⟨-, hstep⟩ := hstep
  split at hstep
  · next m rest hunsent =>
    cases hstep
    obtain ⟨hm, hrest⟩ := List.forall_mem_cons.1 (hunsent ▸ h.unsent)
    exact ⟨⟨h.input, h.stage, hrest⟩, Passage.intact_metric hm⟩
  · split at hstep
    · next now _ _ m rest hqueue =>
      cases hstep
      obtain ⟨hm, hrest⟩ := h.input.take hqueue
      have htaken : ({ t with input := { t.input with queue := rest } } : AggregatorTask).Intact :=
        ⟨hrest, h.stage, h.unsent⟩
      exact ⟨htaken.handle now (by rintro n ⟨⟩; exact hm), Passage.intact_nothing⟩
    · cases hstep
  · split at hstep
    · cases hstep
    · cases hstep
      exact ⟨h.handle _ (by rintro m ⟨⟩), Passage.intact_nothing⟩
  · simp only [Option.ite_none_right_eq_some, Option.some.injEq, Prod.mk.injEq] at hstep
    obtain ⟨-, rfl, rfl⟩ := hstep
    have hdrained : ({ t with drained := true } : AggregatorTask).Intact :=
      ⟨h.input, h.stage, h.unsent⟩
    exact ⟨hdrained.handle _ (by rintro m ⟨⟩), Passage.intact_nothing⟩
  · simp only [Option.ite_none_right_eq_some, Option.some.injEq, Prod.mk.injEq] at hstep
    obtain ⟨-, rfl, rfl⟩ := hstep
    exact ⟨⟨t.input.intact_leave, h.stage, h.unsent⟩, Passage.intact_finish⟩
  · cases hstep

end AggregatorTask

namespace FanOut

variable {f f' : FanOut}

theorem Intact.step {a : FanAction} (h : f.Intact) (hstep : f.step a = some f') : f'.Intact := by
  cases a with
  | take =>
      simp only [FanOut.step] at hstep
      split at hstep
      · next m rest _ hqueue =>
        cases hstep
        obtain ⟨hm, hrest⟩ := h.input.take hqueue
        exact ⟨hrest, by rintro n i ⟨⟩; exact hm, h.outputs⟩
      · cases hstep
  | hand =>
      simp only [FanOut.step] at hstep
      split at hstep
      · next m i hhanding =>
        have hm := h.handing m i hhanding
        split at hstep
        · next o ho =>
          cases hstep
          have hoffered := (h.outputs o (List.mem_of_getElem? ho)).offer hm
          exact ⟨h.input, by rintro n j ⟨⟩; exact hm, forall_mem_set h.outputs hoffered i⟩
        · cases hstep
          exact ⟨h.input, by rintro n j ⟨⟩, h.outputs⟩
      · cases hstep
  | finish =>
      simp only [FanOut.step, Option.ite_none_right_eq_some, Option.some.injEq] at hstep
      obtain ⟨-, rfl⟩ := hstep
      exact ⟨f.input.intact_leave, h.handing, h.outputs⟩

theorem Intact.onOutput {i : Nat} {change : OutputTask → Option OutputTask} (h : f.Intact)
    (hchange : ∀ {o o' : OutputTask}, o.Intact → change o = some o' → o'.Intact)
    (hstep : f.onOutput i change = some f') : f'.Intact := by
  simp only [FanOut.onOutput, Option.map_eq_some_iff, Option.bind_eq_some_iff] at hstep
  obtain ⟨o', ⟨o, ho, ho'⟩, rfl⟩ := hstep
  have hkept := hchange (h.outputs o (List.mem_of_getElem? ho)) ho'
  exact ⟨h.input, h.handing, forall_mem_set h.outputs hkept i⟩

end FanOut

namespace Tasks

variable {t t' : Tasks} {passage : Passage}

theorem intact_start {p : Pipeline} (h : p.Intact) (channelSize : Nat) :
    (start channelSize p).Intact := by
  refine ⟨fun s hs => ?_, fun s hs => ?_, fun a ha => ?_, Link.intact_make channelSize,
    by rintro m i ⟨⟩, fun o ho => ?_⟩
  · obtain ⟨source, hsource, rfl⟩ := List.mem_map.1 hs
    exact ⟨(h.sources source hsource).source, (h.sources source hsource).gatherer,
      List.forall_mem_nil _⟩
  · obtain ⟨stage, hstage, rfl⟩ := List.mem_map.1 hs
    exact StageTask.intact_start channelSize (h.processors stage hstage)
  · simp only [start, Option.ite_none_left_eq_some, Option.some.injEq] at ha
    obtain ⟨-, rfl⟩ := ha
    exact ⟨Link.intact_make channelSize, h.aggregators, List.forall_mem_nil _⟩
  · obtain ⟨outlet, houtlet, rfl⟩ := List.mem_map.1 ho
    exact OutputTask.intact_start (h.outlets outlet houtlet).output

theorem Intact.passOut (h : t.Intact) (hpassage : passage.Intact)
    (hpass : t.passOut? passage = some t') : t'.Intact := by
  obtain ⟨l, hl, rfl⟩ := Option.map_eq_some_iff.1 hpass
  exact { h with fan := { h.fan with input := h.fan.input.pass hpassage hl } }

theorem Intact.passOn (h : t.Intact) (hpassage : passage.Intact)
    (hpass : t.passOn? passage = some t') : t'.Intact := by
  unfold passOn? at hpass
  split at hpass
  · next a ha =>
    obtain ⟨l, hl, rfl⟩ := Option.map_eq_some_iff.1 hpass
    have hkept := h.aggregation a ha
    refine { h with aggregation := ?_ }
    rintro b ⟨⟩
    exact { hkept with input := hkept.input.pass hpassage hl }
  · exact h.passOut hpassage hpass

theorem Intact.pass {i : Nat} (h : t.Intact) (hpassage : passage.Intact)
    (hpass : t.pass? i passage = some t') : t'.Intact := by
  unfold pass? at hpass
  split at hpass
  · next s hs =>
    obtain ⟨l, hl, rfl⟩ := Option.map_eq_some_iff.1 hpass
    have hkept := h.stages s (List.mem_of_getElem? hs)
    have hpassed : ({ s with input := l } : StageTask).Intact :=
      ⟨hkept.input.pass hpassage hl, hkept.body⟩
    exact { h with stages := forall_mem_set h.stages hpassed i }
  · exact h.passOn hpassage hpass

theorem intact_fromSource (h : passage.Intact) : (t.fromSource passage).Intact := by
  unfold fromSource
  split
  · split
    · exact Passage.intact_finish
    · exact Passage.intact_nothing
  · exact h

/-- Whatever a task does, no metric becomes ill-formed. -/
theorem Intact.step {a : TaskAction} (h : t.Intact) (hstep : t.step a = some t') : t'.Intact := by
  cases a with
  | source i a =>
      simp only [Tasks.step, bind, Option.bind_eq_some_iff] at hstep
      obtain ⟨s, hs, ⟨s', passage⟩, hacted, hstep⟩ := hstep
      obtain ⟨hs', hpassage⟩ := (h.sources s (List.mem_of_getElem? hs)).step hacted
      have hset : ({ t with sources := t.sources.set i s' } : Tasks).Intact :=
        { h with sources := forall_mem_set h.sources hs' i }
      exact hset.pass (intact_fromSource hpassage) hstep
  | stage i a =>
      simp only [Tasks.step, bind, Option.bind_eq_some_iff] at hstep
      obtain ⟨s, hs, ⟨s', passage⟩, hacted, hstep⟩ := hstep
      obtain ⟨hs', hpassage⟩ := (h.stages s (List.mem_of_getElem? hs)).step hacted
      have hset : ({ t with stages := t.stages.set i s' } : Tasks).Intact :=
        { h with stages := forall_mem_set h.stages hs' i }
      exact hset.pass hpassage hstep
  | aggregators a =>
      simp only [Tasks.step, bind, Option.bind_eq_some_iff] at hstep
      obtain ⟨s, hs, ⟨s', passage⟩, hacted, hstep⟩ := hstep
      obtain ⟨hs', hpassage⟩ := (h.aggregation s hs).step hacted
      have hset : ({ t with aggregation := some s' } : Tasks).Intact :=
        { h with aggregation := by rintro b ⟨⟩; exact hs' }
      exact hset.passOut hpassage hstep
  | fanOut a =>
      simp only [Tasks.step, Option.map_eq_some_iff] at hstep
      obtain ⟨f, hf, rfl⟩ := hstep
      exact { h with fan := h.fan.step hf }

end Tasks

def SinkCall.Intact (c : SinkCall) : Prop := ∀ ms, c = .write ms → ∀ m ∈ ms, m.WellFormed

namespace Service

/-- No task of a service has a metric that is not well-formed, and no sink has
been handed one. -/
structure Intact (s : Service) : Prop where
  tasks : s.tasks.Intact
  calls : ∀ c ∈ s.calls, c.2.Intact

variable {s s' : Service}

theorem intact_start {p : Pipeline} (h : p.Intact) : (start p).Intact := by
  have hfirst := Tasks.intact_start h Pipeline.channelSize
  refine ⟨?_, List.forall_mem_nil _⟩
  simp only [start]
  split
  · cases hpass : (Tasks.start Pipeline.channelSize p).pass? 0 .finish with
    | none => exact hfirst
    | some t => exact hfirst.pass Passage.intact_finish hpass
  · exact hfirst

theorem intact_concat (h : ∀ c ∈ s.calls, c.2.Intact) {i : Nat} {call : SinkCall}
    (hcall : call.Intact) : ∀ c ∈ s.calls ++ [(i, call)], c.2.Intact :=
  List.forall_mem_append.2 ⟨h, List.forall_mem_singleton.2 hcall⟩

theorem intact_writeCall {i : Nat} {a : LoopAction} {o : OutputTask} (h : o.Intact) :
    ∀ c ∈ writeCall i a o, c.2.Intact := by
  unfold writeCall
  split
  · next batch hwriting =>
    refine List.forall_mem_singleton.2 ?_
    rintro ms ⟨⟩
    exact h.writing batch hwriting
  · exact List.forall_mem_nil _

theorem intact_finish {i : Nat} {writes : List (Option String)} {failure : Option String}
    {o : OutputTask} (h : o.Intact) : (finish o i writes failure).1.Intact ∧
      ∀ c ∈ (finish o i writes failure).2, c.2.Intact := by
  have hscript : ∀ r ∈ writes.map fun failure => (⟨[], failure⟩ : Reaction), r.Intact := by
    intro r hr
    obtain ⟨failure, -, rfl⟩ := List.mem_map.1 hr
    exact List.forall_mem_nil _
  have hflush := h.output.write hscript
  refine ⟨⟨hflush.output, h.writing⟩, List.forall_mem_append.2 ⟨fun c hc => ?_, ?_⟩⟩
  · obtain ⟨w, hw, rfl⟩ := List.mem_map.1 hc
    rintro ms ⟨⟩
    exact hflush.log w hw
  · exact List.forall_mem_singleton.2 (by rintro ms ⟨⟩)

theorem intact_setOutput {i : Nat} {o : OutputTask} (h : s.tasks.Intact) (ho : o.Intact) :
    ({ s.tasks with fan := { s.tasks.fan with outputs := s.outputs.set i o } } : Tasks).Intact :=
  { h with fan := { h.fan with outputs := forall_mem_set h.fan.outputs ho i } }

/-- Every event keeps a service intact. -/
theorem Intact.step {event : ServiceEvent} (h : s.Intact) (hstep : s.step event = some s') :
    s'.Intact := by
  cases event with
  | connect failure =>
      simp only [Service.step] at hstep
      split at hstep
      · simp only [bind, Option.bind_eq_some_iff, pure, Option.some.injEq] at hstep
        obtain ⟨o, -, rfl⟩ := hstep
        exact ⟨h.tasks, intact_concat h.calls (by rintro ms ⟨⟩)⟩
      · cases hstep
  | undo failure =>
      simp only [Service.step] at hstep
      split at hstep
      · cases hstep
        exact ⟨h.tasks, intact_concat h.calls (by rintro ms ⟨⟩)⟩
      · cases hstep
  | task a =>
      simp only [Service.step, Option.ite_none_right_eq_some, Option.map_eq_some_iff] at hstep
      obtain ⟨-, t, ht, rfl⟩ := hstep
      exact ⟨h.tasks.step ht, h.calls⟩
  | loop i a =>
      simp only [Service.step, bind, pure, Option.ite_none_right_eq_some, Option.bind_eq_some_iff,
        Option.some.injEq] at hstep
      obtain ⟨-, o, ho, o', ho', rfl⟩ := hstep
      have hkept := (h.tasks.fan.outputs o (List.mem_of_getElem? ho)).step ho'
      exact ⟨intact_setOutput h.tasks hkept,
        List.forall_mem_append.2 ⟨h.calls, intact_writeCall hkept⟩⟩
  | shutdown =>
      simp only [Service.step] at hstep
      split at hstep <;> cases hstep
      exact ⟨h.tasks, h.calls⟩
  | proceed =>
      simp only [Service.step] at hstep
      split at hstep
      · split at hstep <;> cases hstep
        exact ⟨h.tasks, h.calls⟩
      · split at hstep <;> cases hstep
        exact ⟨h.tasks, h.calls⟩
      · split at hstep <;> cases hstep
        exact ⟨h.tasks, h.calls⟩
      · cases hstep
  | endLoop i =>
      simp only [Service.step] at hstep
      split at hstep
      · obtain ⟨f, hf, rfl⟩ := Option.map_eq_some_iff.1 hstep
        have hkept := h.tasks.fan.onOutput (fun ho hstop => ho.stop hstop) hf
        exact ⟨{ h.tasks with fan := hkept }, h.calls⟩
      · cases hstep
  | finish writes failure =>
      simp only [Service.step] at hstep
      split at hstep
      · simp only [bind, pure, Option.bind_eq_some_iff, Option.some.injEq] at hstep
        obtain ⟨o, ho, rfl⟩ := hstep
        obtain ⟨hkept, hcalls⟩ := intact_finish (h.tasks.fan.outputs o (List.mem_of_getElem? ho))
        exact ⟨intact_setOutput h.tasks hkept, List.forall_mem_append.2 ⟨h.calls, hcalls⟩⟩
      · cases hstep

theorem Intact.run (h : s.Intact) (events : List ServiceEvent) : (s.run events).Intact := by
  refine List.foldlRecOn (motive := Intact) events _ h fun s hs event _ => ?_
  unfold Service.next
  cases hstep : s.step event with
  | none => exact hs
  | some s' => exact hs.step hstep

end Service

/-! ### A run in time -/

namespace PipelineRun

/-- No part of a pipeline has a metric that is not well-formed, and nothing else
has been logged. -/
structure Intact (r : PipelineRun) : Prop where
  pipeline : r.pipeline.Intact
  log : ∀ e ∈ r.log, e.Intact

variable {r : PipelineRun}

theorem intact_deliver {m : Metric} (hm : m.WellFormed) {outlets : List Outlet}
    (h : ∀ o ∈ outlets, o.Intact) (i : Nat) : ∀ o ∈ (deliver m i outlets).1, o.Intact := by
  induction outlets generalizing i with
  | nil => exact h
  | cons o rest ih =>
      obtain ⟨ho, hrest⟩ := List.forall_mem_cons.1 h
      exact List.forall_mem_cons.2 ⟨ho.accept hm, ih hrest (i + 1)⟩

theorem intact_deliverAll {ms : List Metric} (hms : ∀ m ∈ ms, m.WellFormed)
    {outlets : List Outlet} (h : ∀ o ∈ outlets, o.Intact) :
    ∀ o ∈ (deliverAll ms outlets).1, o.Intact := by
  induction ms generalizing outlets with
  | nil => exact h
  | cons m ms ih =>
      obtain ⟨hm, hrest⟩ := List.forall_mem_cons.1 hms
      exact ih hrest (intact_deliver hm h 0)

theorem Intact.onOutlet {change : Outlet → Outlet × List LogEntry} (h : r.Intact)
    (hchange : Outlet.Keeps change) (i : Nat) : (r.onOutlet i change).Intact := by
  unfold PipelineRun.onOutlet
  split
  · exact h
  · next o ho =>
    obtain ⟨hkept, hlog⟩ := hchange o (h.pipeline.outlets o (List.mem_of_getElem? ho))
    exact ⟨{ h.pipeline with outlets := forall_mem_set h.pipeline.outlets hkept i },
      List.forall_mem_append.2 ⟨h.log, hlog⟩⟩

theorem Intact.sendOut (h : r.Intact) {ms : List Metric} (hms : ∀ m ∈ ms, m.WellFormed) :
    (r.sendOut ms).Intact := by
  have hdelivered : ({ r with pipeline := { r.pipeline with
      outlets := (deliverAll ms r.pipeline.outlets).1 } } : PipelineRun).Intact :=
    ⟨{ h.pipeline with outlets := intact_deliverAll hms h.pipeline.outlets }, h.log⟩
  exact List.foldlRecOn (motive := Intact) _ _ hdelivered
    fun s hs i _ => hs.onOutlet (Outlet.keeps_answerWake s.time s.now) i

theorem Intact.feed (h : r.Intact) {ms : List Metric} (hms : ∀ m ∈ ms, m.WellFormed) :
    (r.feed ms).Intact := by
  obtain ⟨hprocessors, hpassed⟩ := ProcessorStage.Intact.feedAll h.pipeline.processors hms
  obtain ⟨haggregators, hout⟩ := h.pipeline.aggregators.feed r.timestamp hpassed
  simp only [PipelineRun.feed]
  refine Intact.sendOut ?_ hout
  exact ⟨{ h.pipeline with processors := hprocessors, aggregators := haggregators }, h.log⟩

theorem Intact.onAggregators (h : r.Intact) {e : StageEvent}
    (he : ∀ m, e = .metric m → m.WellFormed) : (r.onAggregators e).Intact := by
  obtain ⟨haggregators, hout⟩ := h.pipeline.aggregators.step r.timestamp he
  simp only [PipelineRun.onAggregators]
  refine Intact.sendOut ?_ hout
  exact ⟨{ h.pipeline with aggregators := haggregators }, h.log⟩

theorem intact_awaitTick {s : ScheduledSource} (h : s.Intact) (stopping : Bool) (now : Duration) :
    (awaitTick s stopping now).Intact := by
  unfold awaitTick
  split
  · exact ⟨h.source, h.gatherer, nofun⟩
  · split <;> exact ⟨h.source, h.gatherer, nofun⟩

theorem Intact.withSource (h : r.Intact) {s : ScheduledSource} (hs : s.Intact) (i : Nat) :
    (r.withSource i s).Intact :=
  ⟨{ h.pipeline with sources := forall_mem_set h.pipeline.sources hs i }, h.log⟩

theorem Intact.endGather (h : r.Intact) {s : ScheduledSource} (hs : s.Intact) {work : Gather}
    (hwork : work.Sound) (wall : Timestamp) (i : Nat) : (r.endGather wall i s work).Intact := by
  have hgathered := hs.gatherer.gather hwork r.timestamp wall
  obtain ⟨hleft, hreceived⟩ := Accumulator.Intact.receive hgathered
  simp only [PipelineRun.endGather]
  refine Intact.feed (h.withSource (intact_awaitTick ?_ _ _) i) hreceived
  exact ⟨hs.source, hleft, hs.phase⟩

theorem Intact.beginGather (h : r.Intact) {s : ScheduledSource} (hs : s.Intact)
    (wall : Timestamp) (i : Nat) : (r.beginGather wall i s).Intact := by
  have hwork : (s.source s.gatherer.gathers).Sound := hs.source _
  simp only [PipelineRun.beginGather]
  split
  · refine h.endGather ?_ hwork wall i
    exact ⟨hs.source, hs.gatherer, hs.phase⟩
  · refine h.withSource ?_ i
    refine ⟨hs.source, hs.gatherer, ?_⟩
    rintro stop work ⟨⟩
    exact hwork

/-- Whatever becomes due keeps a run intact. -/
theorem Intact.handle (h : r.Intact) (wall : Timestamp) (due : Due) :
    (r.handle wall due).Intact := by
  cases due with
  | gathered i =>
      simp only [PipelineRun.handle]
      split
      · next s hs =>
        have hsource := h.pipeline.sources s (List.mem_of_getElem? hs)
        split
        · next stop work hphase => exact h.endGather hsource (hsource.phase stop work hphase) wall i
        · exact h
      · exact h
  | gather i =>
      simp only [PipelineRun.handle]
      split
      · next s hs => exact h.beginGather (h.pipeline.sources s (List.mem_of_getElem? hs)) wall i
      · exact h
  | push => exact h.onAggregators (e := .timer) (by rintro m ⟨⟩)
  | flush i => exact h.onOutlet (Outlet.keeps_tick r.time r.now) i

theorem intact_start {p : Pipeline} (h : p.Intact) {log : List LogEntry}
    (hlog : ∀ e ∈ log, e.Intact) : ({ start p with log := log } : PipelineRun).Intact := by
  refine ⟨{ h with sources := fun s hs => ?_, outlets := fun o ho => ?_ }, hlog⟩
  · obtain ⟨source, hsource, rfl⟩ := List.mem_map.1 hs
    exact intact_awaitTick (h.sources source hsource) false p.base
  · obtain ⟨outlet, houtlet, rfl⟩ := List.mem_map.1 ho
    exact (h.outlets outlet houtlet).await p.base

theorem Intact.stopSources (h : r.Intact) : r.stopSources.Intact := by
  refine ⟨{ h.pipeline with sources := fun s hs => ?_ }, h.log⟩
  obtain ⟨source, hsource, rfl⟩ := List.mem_map.1 hs
  have hkept := h.pipeline.sources source hsource
  split
  · exact ⟨hkept.source, hkept.gatherer, nofun⟩
  · exact hkept

theorem invariant_intact (wall : Timestamp) : Invariant wall Intact where
  time _ _ h := ⟨h.pipeline, h.log⟩
  handle _ due h := h.handle wall due
  stopSources _ h := h.stopSources

theorem Intact.stopLoops (h : r.Intact) : r.stopLoops.Intact := by
  refine ⟨{ h.pipeline with outlets := fun o ho => ?_ }, h.log⟩
  obtain ⟨outlet, houtlet, rfl⟩ := List.mem_map.1 ho
  have hkept := h.pipeline.outlets outlet houtlet
  exact ⟨hkept.output, hkept.script, hkept.refusals⟩

theorem Intact.finish (h : r.Intact) : r.finish.Intact := by
  have hpushed := (h.onAggregators (e := .stop) (by rintro m ⟨⟩)).stopLoops
  exact List.foldlRecOn (motive := Intact) _ _ hpushed
    fun s hs i _ => hs.onOutlet (Outlet.keeps_finish s.time) i

theorem intact_connectAll (before outlets : List Outlet) :
    ∀ e ∈ (connectAll before outlets).1, e.Intact := by
  have hentries {o : Outlet} {event : SinkEvent} (hevent : ∀ w, event ≠ .write w) :
      ∀ e ∈ o.entries 0 [event], e.Intact := by
    refine List.forall_mem_singleton.2 fun w hw => absurd hw (hevent w)
  induction outlets generalizing before with
  | nil => exact List.forall_mem_nil _
  | cons o rest ih =>
      have hconnect : ∀ e ∈ (o.connect 0).2, e.Intact := hentries (by simp)
      simp only [connectAll]
      split
      · next e log hfailed =>
        rw [hfailed] at hconnect
        refine List.forall_mem_append.2 ⟨hconnect, fun e he => ?_⟩
        obtain ⟨b, -, he⟩ := List.mem_flatMap.1 he
        exact hentries (by simp) e he
      · next log hmade =>
        rw [hmade] at hconnect
        exact List.forall_mem_append.2 ⟨hconnect, ih (o :: before)⟩

end PipelineRun

namespace Pipeline

variable {p : Pipeline}

theorem Intact.run (h : p.Intact) (wall : Timestamp) (stop : Nat) (probes : List Nat) :
    ∀ e ∈ (p.run wall stop probes).log, e.Intact := by
  have hconnect := PipelineRun.intact_connectAll [] p.outlets
  cases hall : PipelineRun.connectAll [] p.outlets with
  | mk log failure =>
      rw [hall] at hconnect
      cases failure with
      | some e =>
          simp only [Pipeline.run, hall]
          exact hconnect
      | none =>
          obtain ⟨last, hlast, -, hlog⟩ := (PipelineRun.invariant_intact wall).exists_last hall
            (PipelineRun.intact_start h hconnect) stop probes
          rw [hlog]
          exact hlast.finish.log

/-- Whatever a pipeline is configured to do with metrics: each one that a sink is
handed to write has a name and a field, no key of a field twice, and its tags in
the strict order of their keys. -/
theorem written_wellFormed {c : Config} {files : Files} {now : Duration}
    (hbuild : build c .builtin files now = .ok p) :
    (∀ events i ms, (i, .write ms) ∈ ((Service.start p).run events).calls →
      ∀ m ∈ ms, m.WellFormed) ∧
      ∀ wall stop probes, ∀ e ∈ (p.run wall stop probes).log, ∀ w, e.event = .write w →
        ∀ m ∈ w.metrics, m.WellFormed := by
  have hintact := intact_of_build hbuild
  refine ⟨fun events i ms hcall => ?_, hintact.run⟩
  exact ((Service.intact_start hintact).run events).calls _ hcall ms rfl

/-- A source measures two fields, a processor makes a copy, and the output keeps
one of the fields. -/
def measured : Config :=
  let text (s : String) : Yaml.Value := .atom (.text s)
  { Config.empty with
    sources := [{ SourceConfig.ofPlugin "constant" with
      name := ⟨none, some "host_", none⟩
      options := .mapping [(text "measurement", text "cpu"),
        (text "fields", .mapping [(text "used", .atom (.int 93)), (text "idle", .atom (.int 7))])] }]
    processors := [.ofPlugin "clone"]
    outputs := [{ OutputConfig.ofPlugin "discard" with
      filter := { FilterConfig.empty with fieldDrop := ["idle"] } }] }

/-- What is measured once is written at the first tick. -/
def gathered : List ServiceEvent :=
  let handed : List ServiceEvent :=
    [.task (.stage 0 .send), .task (.fanOut .take), .task (.fanOut .hand), .task (.fanOut .hand)]
  [.connect none, .task (.source 0 (.gather .epoch .epoch)), .task (.source 0 .send),
    .task (.stage 0 .take)] ++ handed ++ handed ++ [.loop 0 .tick, .loop 0 .write]

theorem written_wellFormed_measured :
    ∃ p, build measured .builtin ⟨.empty, []⟩ .zero = .ok p ∧
      ∃ ms, (0, .write ms) ∈ ((Service.start p).run gathered).calls ∧
        ms.map (fun m => (m.name, m.fields)) =
          [("host_cpu", [("used", .int 93)]), ("host_cpu", [("used", .int 93)])] ∧
        ∀ m ∈ ms, m.WellFormed := by
  let m : Metric := ⟨"host_cpu", [], [("used", .int 93)], .epoch, .untyped⟩
  have hcalls : ((build measured .builtin ⟨.empty, []⟩ .zero).toOption.map fun p =>
      ((Service.start p).run gathered).calls) = some [(0, .connect none), (0, .write [m, m])] := by
    decide +kernel
  cases hbuild : build measured .builtin ⟨.empty, []⟩ .zero with
  | error e =>
      rw [hbuild] at hcalls
      cases hcalls
  | ok p =>
      rw [hbuild] at hcalls
      have hlogged : ((Service.start p).run gathered).calls =
          [(0, .connect none), (0, .write [m, m])] := Option.some.inj hcalls
      have hwritten : (0, .write [m, m]) ∈ ((Service.start p).run gathered).calls := by
        rw [hlogged]
        exact List.mem_cons_of_mem _ List.mem_cons_self
      exact ⟨p, rfl, [m, m], hwritten, rfl,
        (written_wellFormed hbuild).1 gathered 0 [m, m] hwritten⟩

end Pipeline
end MetricAgent
