import MetricAgent.Proofs.Outcomes
import MetricAgent.Proofs.Pipeline.Outputs
import MetricAgent.Proofs.Pipeline.Tasks

/-!
# What a pipeline hands to its outputs

The metrics that the sources have sent are followed from link to link
(`Flow.Sound`): what one task has passed on is what has arrived at the next. A
task has a sender for the link behind it until it ends, so a link is open exactly
while the task before it has not ended. When all tasks have ended, every one of
them has passed on all results in order, and every output has been offered the
same metrics.
-/

namespace MetricAgent

namespace FanOut

/-- The metrics that have been taken and that an output has not got yet. -/
def missing (f : FanOut) (j : Nat) : List Metric :=
  match f.handing with
  | some (m, i) => if i ≤ j then [m] else []
  | none => []

/-- The metrics that arrived at the outputs, `n` in number, and what each of
them has got. -/
structure Sound (n : Nat) (arrived : List Metric) (f : FanOut) : Prop where
  ended : f.input.isRead = false → f.input.isOver = true ∧ f.handing = none
  length : f.outputs.length = n
  tasks : ∀ o ∈ f.outputs, o.Sound
  offered : ∀ (j : Nat) (o : OutputTask), f.outputs[j]? = some o →
    o.offered ++ f.missing j ++ f.input.queue = arrived

variable {n : Nat} {arrived : List Metric} {f f' : FanOut} {passage : Passage}

theorem sound_start {outputs : List Output} (channelSize : Nat)
    (houtputs : ∀ o ∈ outputs, ∃ s maxBatch, o = .make s maxBatch) :
    Sound outputs.length [] ⟨.make channelSize, none, outputs.map .start⟩ where
  ended := nofun
  length := List.length_map _
  tasks := by
    intro o ho
    obtain ⟨output, houtput, rfl⟩ := List.mem_map.1 ho
    obtain ⟨s, maxBatch, rfl⟩ := houtputs output houtput
    exact OutputTask.sound_start s maxBatch
  offered := by
    intro j o ho
    obtain ⟨output, -, rfl⟩ := List.mem_map.1 (List.mem_of_getElem? ho)
    rfl

theorem Sound.isRead (hs : f.Sound n arrived) (hopen : f.input.isOpen = true) :
    f.input.isRead = true := by
  by_contra hread
  exact Link.not_isOver hopen (hs.ended (Bool.eq_false_iff.2 hread)).1

theorem Sound.pass (hs : f.Sound n arrived) (hopen : f.input.isOpen = true) {l : Link}
    (h : f.input.pass? passage = some l) :
    ({ f with input := l } : FanOut).Sound n (arrived ++ passage.metrics) := by
  have hread := hs.isRead hopen
  obtain rfl := Link.pass?_eq hread h
  refine ⟨fun hunread => ?_, hs.length, hs.tasks, fun j o ho => ?_⟩
  · rw [hread] at hunread
    cases hunread
  · rw [← hs.offered j o ho, List.append_assoc _ _ passage.metrics]
    rfl

/-- One output changes, and the others miss what they missed before. -/
theorem Sound.set (hs : f.Sound n arrived) {i : Nat} {o o' : OutputTask}
    (ho : f.outputs[i]? = some o) (ho' : o'.Sound) {handing : Option (Metric × Nat)}
    (hended : f.input.isRead = false → handing = none)
    (hself : o'.offered ++ missing { f with handing := handing } i ++ f.input.queue = arrived)
    (hothers : ∀ j, i ≠ j → missing { f with handing := handing } j = f.missing j) :
    ({ f with handing := handing, outputs := f.outputs.set i o' } : FanOut).Sound n arrived where
  ended h := ⟨(hs.ended h).1, hended h⟩
  length := by rw [List.length_set, hs.length]
  tasks := by
    intro p hp
    rcases List.mem_or_eq_of_mem_set hp with hmem | rfl
    · exact hs.tasks p hmem
    · exact ho'
  offered := by
    intro j p hp
    by_cases hij : i = j
    · subst hij
      rw [List.getElem?_set_self (List.getElem?_eq_some_iff.1 ho).1] at hp
      cases hp
      exact hself
    · rw [List.getElem?_set_ne hij] at hp
      have hsame := hothers j hij
      rw [← hs.offered j p hp, ← hsame]
      rfl

theorem Sound.onOutput (hs : f.Sound n arrived) {i : Nat}
    {change : OutputTask → Option OutputTask}
    (hchange : ∀ o o', OutputTask.Sound o → change o = some o' →
      o'.Sound ∧ o'.offered = o.offered)
    (h : f.onOutput i change = some f') :
    f'.Sound n arrived ∧ f'.input = f.input := by
  unfold FanOut.onOutput at h
  obtain ⟨o', hbind, rfl⟩ := Option.map_eq_some_iff.1 h
  obtain ⟨o, ho, hstep⟩ := Option.bind_eq_some_iff.1 hbind
  obtain ⟨hsound, hsame⟩ := hchange o o' (hs.tasks o (List.mem_of_getElem? ho)) hstep
  refine ⟨hs.set ho hsound (fun hunread => (hs.ended hunread).2) ?_ fun _ _ => rfl, rfl⟩
  rw [hsame]
  exact hs.offered i o ho

theorem Sound.hand (hs : f.Sound n arrived) (h : f.step .hand = some f') :
    f'.Sound n arrived ∧ f'.input.isOpen = f.input.isOpen := by
  have hended : f.input.isRead = false → f.handing = none := fun hunread => (hs.ended hunread).2
  simp only [FanOut.step] at h
  split at h
  · next m i hhanding =>
    have hread : f.input.isRead ≠ false := fun hunread => by
      rw [hended hunread] at hhanding
      cases hhanding
    split at h
    · next o ho =>
      cases h
      have hsound := (hs.tasks o (List.mem_of_getElem? ho)).offer m
      refine ⟨hs.set ho hsound (fun hunread => absurd hunread hread) ?_ fun j hij => ?_, rfl⟩
      · have hbefore := hs.offered i o ho
        have hnone : ¬ i + 1 ≤ i := by omega
        simpa [missing, hhanding, OutputTask.offer, hnone] using hbefore
      · have hle : i + 1 ≤ j ↔ i ≤ j := by omega
        simp only [missing, hhanding, hle]
    · next hnobody =>
      cases h
      refine ⟨⟨fun hunread => absurd hunread hread, hs.length, hs.tasks, fun j o ho => ?_⟩, rfl⟩
      -- Every output comes before the one that is next, so none misses the metric.
      have hlt : ¬ i ≤ j := by
        have hle := List.getElem?_eq_none_iff.1 hnobody
        have hj : j < f.outputs.length := (List.getElem?_eq_some_iff.1 ho).1
        omega
      have hbefore := hs.offered j o ho
      simpa only [missing, hhanding, if_neg hlt] using hbefore
  · cases h

theorem Sound.step {a : FanAction} (hs : f.Sound n arrived) (h : f.step a = some f') :
    f'.Sound n arrived ∧ f'.input.isOpen = f.input.isOpen := by
  cases a with
  | take =>
      simp only [FanOut.step] at h
      split at h
      · next m rest hhanding hqueue =>
        cases h
        refine ⟨⟨fun hunread => ?_, hs.length, hs.tasks, fun j o ho => ?_⟩, rfl⟩
        · have hover := (Link.isOver_iff.1 (hs.ended hunread).1).1
          simp [hqueue] at hover
        · have hbefore := hs.offered j o ho
          simpa [missing, hhanding, hqueue] using hbefore
      · cases h
  | hand => exact hs.hand h
  | finish =>
      simp only [FanOut.step, Option.ite_none_right_eq_some, Bool.and_eq_true,
        Option.isNone_iff_eq_none, Option.some.injEq] at h
      obtain ⟨⟨hhanding, hover⟩, rfl⟩ := h
      obtain ⟨hqueue, hshut⟩ := Link.isOver_iff.1 hover
      refine ⟨⟨fun _ => ⟨Link.isOver_iff.2 ⟨rfl, hshut⟩, hhanding⟩, hs.length, hs.tasks,
        fun j o ho => ?_⟩, rfl⟩
      have hbefore := hs.offered j o ho
      rw [hqueue] at hbefore
      exact hbefore

/-- When the task of the outputs has ended, every output has got everything. -/
theorem Sound.offered_eq (hs : f.Sound n arrived) (h : f.input.isRead = false) {o : OutputTask}
    (ho : o ∈ f.outputs) : o.offered = arrived := by
  obtain ⟨j, hj⟩ := List.getElem?_of_mem ho
  obtain ⟨hover, hhanding⟩ := hs.ended h
  have hall := hs.offered j o hj
  rwa [(Link.isOver_iff.1 hover).1, missing, hhanding, List.append_nil, List.append_nil] at hall

end FanOut

namespace Flow

/-- The processors of some tasks, and the metrics that arrived at the first of
them. -/
inductive Sound (n : Nat) : List Processor → List Metric → Flow → Prop where
  | outputs {arrived : List Metric} {f : FanOut} (sound : f.Sound n arrived) :
      Sound n [] arrived (.outputs f)
  | stage {p : Processor} {ps : List Processor} {arrived passed : List Metric} {t : StageTask}
      {rest : Flow} (sound : t.Sound p arrived passed) (link : rest.input.isOpen = t.input.isRead)
      (behind : Sound n ps passed rest) : Sound n (p :: ps) arrived (.stage t rest)

variable {n : Nat} {ps : List Processor} {arrived : List Metric} {flow flow' : Flow}
  {passage : Passage}

theorem input_start (channelSize : Nat) (outputs : List Output) (stages : List ProcessorStage) :
    (start channelSize outputs stages).input = .make channelSize := by
  cases stages with
  | nil => rfl
  | cons s stages => cases s <;> rfl

theorem sound_start (channelSize : Nat) {stages : List ProcessorStage} {outputs : List Output}
    (hstages : ∀ s ∈ stages, s.processor.IsTotal ∧ ∃ workers ordered queueSize,
      s = .make s.processor workers ordered queueSize ∧ (workers ≤ 1 ∨ ordered = true))
    (houtputs : ∀ o ∈ outputs, ∃ s maxBatch, o = .make s maxBatch) :
    (start channelSize outputs stages).Sound outputs.length (stages.map ProcessorStage.processor)
      [] := by
  induction stages with
  | nil => exact .outputs (FanOut.sound_start channelSize houtputs)
  | cons s stages ih =>
      obtain ⟨htotal, workers, ordered, queueSize, hs, hmode⟩ := hstages s List.mem_cons_self
      have hrest := ih fun s hs => hstages s (List.mem_cons_of_mem _ hs)
      refine .stage (StageTask.sound_start channelSize hs hmode htotal) ?_ hrest
      rw [input_start]
      cases s <;> rfl

theorem Sound.pass (hs : flow.Sound n ps arrived) (hopen : flow.input.isOpen = true)
    (h : flow.pass? passage = some flow') :
    flow'.Sound n ps (arrived ++ passage.metrics) ∧ flow'.input.isOpen = passage.keepsSender := by
  unfold Flow.pass? at h
  obtain ⟨l, hl, rfl⟩ := Option.map_eq_some_iff.1 h
  have hkept (hread : flow.input.isRead = true) :
      l.isOpen = passage.keepsSender ∧ l.isRead = true := by
    obtain rfl := Link.pass?_eq hread hl
    exact ⟨by rw [hopen, Bool.true_and], hread⟩
  cases hs with
  | outputs hsound =>
      exact ⟨.outputs (hsound.pass hopen hl), (hkept (hsound.isRead hopen)).1⟩
  | stage hsound hlink hbehind =>
      have hread := hsound.isRead hopen
      refine ⟨.stage (hsound.pass hopen hl) ?_ hbehind, (hkept hread).1⟩
      rw [hlink, hread]
      exact (hkept hread).2.symm

/-- What an action of a stage passes on arrives at the next one. -/
theorem Sound.stepStage {a : StageAction} {i : Nat} (hs : flow.Sound n ps arrived)
    (h : flow.stepStage a i = some flow') :
    flow'.Sound n ps arrived ∧ flow'.input.isOpen = flow.input.isOpen := by
  induction hs generalizing i flow' with
  | outputs hsound => cases i <;> cases h
  | @stage p ps arrived passed t rest hsound hlink hbehind ih =>
      cases i with
      | zero =>
          simp only [Flow.stepStage] at h
          split at h
          · next t' passage hstep =>
            obtain ⟨rest', hpass, rfl⟩ := Option.map_eq_some_iff.1 h
            -- The task was still there, so the link behind it was open.
            obtain ⟨hread, ht, hopen, hread'⟩ := hsound.step hstep
            obtain ⟨hrest, hrestopen⟩ := hbehind.pass (hlink.trans hread) hpass
            exact ⟨.stage ht (hrestopen.trans hread'.symm) hrest, hopen⟩
          · cases h
      | succ i =>
          obtain ⟨rest', hstep, rfl⟩ := Option.map_eq_some_iff.1 h
          obtain ⟨hrest, hopen⟩ := ih hstep
          exact ⟨.stage hsound (hopen.trans hlink) hrest, rfl⟩

theorem Sound.onFan {change : FanOut → Option FanOut} (hs : flow.Sound n ps arrived)
    (hchange : ∀ arrived f f', FanOut.Sound n arrived f → change f = some f' →
      f'.Sound n arrived ∧ f'.input.isOpen = f.input.isOpen)
    (h : flow.onFan change = some flow') :
    flow'.Sound n ps arrived ∧ flow'.input.isOpen = flow.input.isOpen := by
  induction hs generalizing flow' with
  | outputs hsound =>
      obtain ⟨f', hstep, rfl⟩ := Option.map_eq_some_iff.1 h
      obtain ⟨hf, hopen⟩ := hchange _ _ _ hsound hstep
      exact ⟨.outputs hf, hopen⟩
  | stage hsound hlink hbehind ih =>
      obtain ⟨rest', hstep, rfl⟩ := Option.map_eq_some_iff.1 h
      obtain ⟨hrest, hopen⟩ := ih hstep
      exact ⟨.stage hsound (hopen.trans hlink) hrest, rfl⟩

theorem Sound.onOutput {change : OutputTask → Option OutputTask} {i : Nat}
    (hs : flow.Sound n ps arrived)
    (hchange : ∀ o o', OutputTask.Sound o → change o = some o' →
      o'.Sound ∧ o'.offered = o.offered)
    (h : flow.onFan (fun f => f.onOutput i change) = some flow') : flow'.Sound n ps arrived := by
  refine (hs.onFan (fun arrived f f' hf hstep => ?_) h).1
  obtain ⟨hf', hinput⟩ := hf.onOutput hchange hstep
  exact ⟨hf', by rw [hinput]⟩

theorem Sound.step {a : FlowAction} (hs : flow.Sound n ps arrived) (h : flow.step a = some flow') :
    flow'.Sound n ps arrived := by
  cases a with
  | stage i a => exact (hs.stepStage h).1
  | fanOut a => exact (hs.onFan (fun _ _ _ hf hstep => hf.step hstep) h).1
  | loop i a => exact hs.onOutput (fun _ _ ho hstep => ho.step hstep) h

/-- What a metric becomes on its way through processors, for all metrics. -/
def through (ps : List Processor) (ms : List Metric) : List Metric :=
  ps.foldl (fun ms p => ms.flatMap p.yields) ms

/-- When all tasks have ended, all that arrived has gone through to the outputs. -/
theorem Sound.fan_of_ended (hs : flow.Sound n ps arrived) (h : flow.ended = true) :
    flow.fan.Sound n (through ps arrived) ∧ flow.fan.input.isRead = false := by
  induction hs with
  | outputs hsound =>
      simp only [Flow.ended, Bool.not_eq_true'] at h
      exact ⟨hsound, h⟩
  | stage hsound hlink hbehind ih =>
      simp only [Flow.ended, Bool.and_eq_true, Bool.not_eq_true'] at h
      obtain ⟨hread, hended⟩ := h
      -- What arrived at the rest is all that this task made of its input.
      have hpassed := hsound.passed_eq hread
      rw [hpassed] at ih
      exact ih hended

end Flow

namespace FlowRun

variable {n : Nat} {ps : List Processor} {r s : FlowRun}

theorem sound_step {e : FlowEvent} (hs : r.flow.Sound n ps r.sent) (h : r.step e = some s) :
    s.flow.Sound n ps s.sent := by
  cases e with
  | source m =>
      simp only [step, Option.ite_none_right_eq_some] at h
      obtain ⟨hopen, h⟩ := h
      obtain ⟨flow, hpass, rfl⟩ := Option.map_eq_some_iff.1 h
      exact (hs.pass hopen hpass).1
  | stopSources =>
      simp only [step, Option.ite_none_right_eq_some] at h
      obtain ⟨hopen, h⟩ := h
      obtain ⟨flow, hpass, rfl⟩ := Option.map_eq_some_iff.1 h
      simpa [Passage.metrics] using (hs.pass hopen hpass).1
  | act a =>
      obtain ⟨flow, hstep, rfl⟩ := Option.map_eq_some_iff.1 h
      exact hs.step hstep
  | stopLoop i =>
      simp only [step, Option.ite_none_right_eq_some] at h
      obtain ⟨-, h⟩ := h
      obtain ⟨flow, hstep, rfl⟩ := Option.map_eq_some_iff.1 h
      exact hs.onOutput (fun _ _ ho hstop => ho.stop hstop) hstep

theorem sound_run (hs : r.flow.Sound n ps r.sent) (events : List FlowEvent) :
    (r.run events).flow.Sound n ps (r.run events).sent := by
  induction events generalizing r with
  | nil => exact hs
  | cons e events ih =>
      refine ih ?_
      unfold next
      cases h : r.step e with
      | none => exact hs
      | some s => exact sound_step hs h

end FlowRun

namespace Pipeline

variable {c : Config} {r : Registry} {files : Files} {now : Duration} {p : Pipeline}

/-- What is built is built part by part. -/
theorem parts_of_build (h : build c r files now = .ok p) :
    c.sources.mapM (buildSource c r now) = .ok p.sources ∧
      c.processors.mapM (buildProcessor r) = .ok p.processors ∧
      c.aggregators.mapM (buildAggregator c r now) = .ok p.aggregators ∧
      c.outputs.mapM (buildOutlet c r files now) = .ok p.outlets := by
  unfold build at h
  obtain ⟨sources, hsources, h⟩ := bind_eq_ok.1 h
  obtain ⟨processors, hprocessors, h⟩ := bind_eq_ok.1 h
  obtain ⟨aggregators, haggregators, h⟩ := bind_eq_ok.1 h
  obtain ⟨outlets, houtlets, h⟩ := bind_eq_ok.1 h
  cases h
  exact ⟨hsources, hprocessors, haggregators, houtlets⟩

theorem stages_of_build (h : build c r files now = .ok p) :
    (∀ s ∈ p.processors, ∃ settings ∈ c.processors, buildProcessor r settings = .ok s) ∧
      ∀ o ∈ p.outlets, ∃ settings ∈ c.outputs, buildOutlet c r files now settings = .ok o := by
  obtain ⟨-, hprocessors, -, houtlets⟩ := parts_of_build h
  exact ⟨fun s hs => exists_of_mem_mapM hprocessors hs, fun o ho => exists_of_mem_mapM houtlets ho⟩

theorem make_of_buildProcessor {settings : ProcessorConfig} {s : ProcessorStage}
    (h : buildProcessor r settings = .ok s) :
    s = .make s.processor settings.workers settings.ordered settings.queueSize := by
  obtain ⟨processor, -, h⟩ := bind_eq_ok.1 h
  cases h
  unfold ProcessorStage.make
  split <;> rfl

theorem make_of_buildOutlet {settings : OutputConfig} {o : Outlet}
    (h : buildOutlet c r files now settings = .ok o) : ∃ s maxBatch, o.output = .make s maxBatch ∧
      s.batchSize = c.batchSizeOf settings ∧ s.bufferLimit = c.bufferLimitOf settings := by
  obtain ⟨sink, -, h⟩ := bind_eq_ok.1 h
  obtain ⟨filter, -, h⟩ := bind_eq_ok.1 h
  obtain ⟨ticker, -, h⟩ := bind_eq_ok.1 h
  cases h
  exact ⟨_, _, rfl, rfl, rfl⟩

/-- However the tasks of a pipeline take turns: once they have ended, every
output has been offered what the processors make of the metrics that the sources
have sent, and a flush that succeeds then leaves nothing behind. -/
theorem offered_in_order (hbuild : build c r files now = .ok p) (hnone : p.aggregators = [])
    (hmode : ∀ s ∈ c.processors, s.workers ≤ 1 ∨ s.ordered = true)
    (htotal : ∀ s ∈ p.processors, s.processor.IsTotal) (events : List FlowEvent)
    (hended : ((p.flow hnone).run events).flow.ended = true) :
    let run := (p.flow hnone).run events
    let all := p.processors.foldl (fun ms s => ms.flatMap s.processor.yields) run.sent
    run.flow.fan.outputs.length = p.outlets.length ∧
      ∀ o ∈ run.flow.fan.outputs, o.offered = all ∧
        o.output.stats.added + o.output.stats.filtered = all.length ∧
        (o.phase = .ended →
          let last := (o.output.write []).output
          last.stats.written + last.stats.dropped = last.stats.added ∧
            last.buffer.entries = []) := by
  intro run all
  obtain ⟨hprocessors, houtlets⟩ := stages_of_build hbuild
  have hstart : (p.flow hnone).flow.Sound (p.outlets.map Outlet.output).length
      (p.processors.map ProcessorStage.processor) (p.flow hnone).sent := by
    refine Flow.sound_start channelSize (fun s hs => ?_) fun o ho => ?_
    · obtain ⟨settings, hsettings, hmade⟩ := hprocessors s hs
      exact ⟨htotal s hs, settings.workers, settings.ordered, settings.queueSize,
        make_of_buildProcessor hmade, hmode settings hsettings⟩
    · obtain ⟨outlet, houtlet, rfl⟩ := List.mem_map.1 ho
      obtain ⟨settings, -, hmade⟩ := houtlets outlet houtlet
      obtain ⟨s, maxBatch, hmake, -⟩ := make_of_buildOutlet hmade
      exact ⟨s, maxBatch, hmake⟩
  have hs := FlowRun.sound_run hstart events
  obtain ⟨hfan, hread⟩ := hs.fan_of_ended hended
  refine ⟨?_, fun o ho => ?_⟩
  · rw [hfan.length, List.length_map]
  · have hoffered : o.offered = all := by
      rw [hfan.offered_eq hread ho, Flow.through, List.foldl_map]
    have ho := hfan.tasks o ho
    refine ⟨hoffered, ?_, fun hphase => ?_⟩
    · rw [← hoffered, ← ho.seen]
      rfl
    · have hidle := ho.idle (.inr hphase)
      exact ((hidle ▸ ho.followed).write ho.batchSize_pos).symm

/-- Two workers copy metrics, and two outputs take them. -/
def relay : Config :=
  { Config.empty with
    processors := [{ ProcessorConfig.ofPlugin "clone" with workers := 2 }, .ofPlugin "tags"]
    outputs := [.ofPlugin "discard", { OutputConfig.ofPlugin "discard" with bufferLimit := some 3 }] }

/-- Two metrics go through. The second one is transformed first. -/
def relayed : List FlowEvent :=
  let reading (name : String) : Metric := ⟨name, [], [("value", .int 1)], .epoch, .untyped⟩
  let dispatch (a : DispatchAction) : FlowEvent := .act (.stage 0 (.dispatch (.act a)))
  let emitted := [dispatch .start, dispatch .send, dispatch .send, dispatch .release]
  let entered (name : String) : List FlowEvent :=
    [.source (reading name), .act (.stage 0 .take), .act (.stage 0 .submit), dispatch .queueUp,
      dispatch .pick]
  let handed : List FlowEvent :=
    [.act (.stage 1 .take), .act (.stage 1 .send), .act (.fanOut .take), .act (.fanOut .hand),
      .act (.fanOut .hand), .act (.fanOut .hand)]
  entered "cpu" ++ entered "disk" ++
    [dispatch (.finish 1), dispatch (.handOver 0), dispatch .receive, dispatch (.finish 0),
      dispatch (.handOver 0), dispatch .receive] ++ emitted ++ handed ++
    [.stopSources, .act (.loop 0 .tick), .act (.loop 0 .write), .act (.loop 0 (.settle false))] ++
    emitted ++ handed ++ handed ++ handed ++
    [.act (.stage 0 (.dispatch .close)), .act (.stage 0 (.dispatch .leave)),
      .act (.stage 0 (.dispatch .leave)), .act (.stage 0 (.dispatch .stop)),
      .act (.stage 1 .finish), .act (.fanOut .finish), .stopLoop 0, .stopLoop 1]

theorem offered_in_order_relayed :
    ∃ (p : Pipeline) (hnone : p.aggregators = []),
      build relay .builtin ⟨.empty, []⟩ (.ofSeconds 0) = .ok p ∧
        let run := (p.flow hnone).run relayed
        run.flow.ended = true ∧ run.sent.length = 2 ∧ run.flow.fan.outputs.length = 2 ∧
          ∀ o ∈ run.flow.fan.outputs,
            o.offered = p.processors.foldl (fun ms s => ms.flatMap s.processor.yields) run.sent ∧
              o.output.stats.added + o.output.stats.filtered = 4 ∧
              (o.output.write []).output.stats.written + (o.output.write []).output.stats.dropped =
                4 := by
  refine ⟨_, rfl, rfl, ?_⟩
  intro run
  have hended : run.flow.ended = true := by decide +kernel
  have htotal : ∀ s ∈ [ProcessorStage.make (.copy .none []) 2 true 1000, .inline (.retag [] [] true)],
      s.processor.IsTotal := by
    intro s hs
    rcases List.mem_cons.1 hs with rfl | hs
    · exact Processor.isTotal_copy _ _
    · rcases List.mem_singleton.1 hs with rfl
      exact Processor.isTotal_retag _ _ _
  have hstopped : ∀ o ∈ run.flow.fan.outputs,
      o.phase = .ended ∧ (o.output.write []).output.stats.added = 4 := by decide +kernel
  obtain ⟨hlength, hall⟩ := offered_in_order (c := relay) (r := .builtin) rfl rfl (by decide) htotal
    relayed hended
  refine ⟨hended, by decide +kernel, hlength, fun o ho => ?_⟩
  obtain ⟨hoffered, hseen, hflush⟩ := hall o ho
  obtain ⟨hphase, hadded⟩ := hstopped o ho
  refine ⟨hoffered, hseen.trans (by decide +kernel), ?_⟩
  rw [(hflush hphase).1, hadded]

end Pipeline

end MetricAgent
