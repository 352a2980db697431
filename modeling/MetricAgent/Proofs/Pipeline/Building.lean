import MetricAgent.Proofs.Aggregator.Lateness
import MetricAgent.Proofs.Config.Valid
import MetricAgent.Proofs.Pipeline.Delivery
import MetricAgent.Proofs.Tick.Waits

/-!
# Building what has been checked

A configuration is checked before it is known which plugins there are, so what
is left to go wrong is up to the registry and to the patterns of the filters
(`Pipeline.Refused`). Where the settings of the agent stand in for those of a
source or an output, they do so in the check as in the making of tickers and
buffers. A pipeline that is built from a checked configuration therefore has the
queues, buffers and batches that were asked for, except that a sink may ask for
smaller batches.
-/

namespace MetricAgent

def Config.filters (c : Config) : List FilterConfig :=
  c.sources.map SourceConfig.filter ++ c.aggregators.map AggregatorConfig.filter ++
    c.outputs.map OutputConfig.filter

/-- The batches of an output are not empty, no larger than was asked for, and fit
into its buffer, which is as large as was asked for. -/
structure Outlet.Suits (c : Config) (settings : OutputConfig) (o : Outlet) : Prop where
  batch_pos : 1 ≤ o.output.batchSize
  batch_le : o.output.batchSize ≤ c.batchSizeOf settings
  batch_fits : o.output.batchSize ≤ o.output.buffer.capacity
  capacity : o.output.buffer.capacity = c.bufferLimitOf settings

/-- A stage is run as was asked for, with a place in its queues. -/
structure ProcessorStage.Suits (settings : ProcessorConfig) (s : ProcessorStage) : Prop where
  queue_pos : 1 ≤ settings.queueSize
  made : s = .make s.processor settings.workers settings.ordered settings.queueSize

namespace Pipeline

/-- The errors of a registry that does not make a plugin, and of a filter that
does not compile. -/
inductive Refused (c : Config) (r : Registry) : BuildError → Prop where
  | source {s : SourceConfig} {e : PluginError} (mem : s ∈ c.sources)
      (refused : r.source s.plugin s.options = .error e) : Refused c r (.plugin e)
  | processor {s : ProcessorConfig} {e : PluginError} (mem : s ∈ c.processors)
      (refused : r.processor s.plugin s.options = .error e) : Refused c r (.plugin e)
  | aggregator {a : AggregatorConfig} {e : PluginError} (mem : a ∈ c.aggregators)
      (refused : r.aggregator a.plugin a.options = .error e) : Refused c r (.plugin e)
  | sink {o : OutputConfig} {e : PluginError} (mem : o ∈ c.outputs)
      (refused : r.sink o.plugin o.options = .error e) : Refused c r (.plugin e)
  | filter {f : FilterConfig} {e : Glob.Failure} (mem : f ∈ c.filters)
      (refused : f.compile = .error e) : Refused c r (.filter e)

variable {c : Config} {r : Registry} {files : Files} {now : Duration} {e : BuildError}

/-- Where a plugin with a filter is built, one of the two is refused, or what is
made of them fails. -/
theorem error_cases {α β : Type} {plugin : Except PluginError α}
    {filter : Except Glob.Failure Filter} {rest : α → Filter → Except BuildError β}
    (h : (plugin.mapError BuildError.plugin >>= fun a =>
      filter.mapError BuildError.filter >>= fun f => rest a f) = .error e) :
    (∃ failure, plugin = .error failure ∧ .plugin failure = e) ∨
      (∃ failure, filter = .error failure ∧ .filter failure = e) ∨ ∃ a f, rest a f = .error e := by
  rcases bind_eq_error.1 h with h | ⟨a, -, h⟩
  · exact .inl (mapError_eq_error.1 h)
  rcases bind_eq_error.1 h with h | ⟨f, -, h⟩
  · exact .inr (.inl (mapError_eq_error.1 h))
  · exact .inr (.inr ⟨a, f, h⟩)

theorem ticker_ne_error {interval jitter : Duration} (hinterval : 0 < interval.nanos)
    {aligned : Bool} {e : ScheduleError} : Ticker.make interval jitter aligned now ≠ .error e := by
  rw [Ticker.make_eq hinterval]
  nofun

theorem refused_of_buildSource (hv : c.Valid) {s : SourceConfig} (hs : s ∈ c.sources)
    (h : buildSource c r now s = .error e) : Refused c r e := by
  obtain ⟨failure, hfailure, rfl⟩ | ⟨failure, hfailure, rfl⟩ | ⟨source, filter, h⟩ := error_cases h
  · exact .source hs hfailure
  · exact .filter (by simp [Config.filters, List.mem_map_of_mem hs]) hfailure
  · rcases bind_eq_error.1 h with h | ⟨ticker, -, h⟩
    · obtain ⟨failure, hfailure, -⟩ := mapError_eq_error.1 h
      exact absurd hfailure (ticker_ne_error (hv.intervalOf_pos hs))
    · cases h

theorem refused_of_buildProcessor {s : ProcessorConfig} (hs : s ∈ c.processors)
    (h : buildProcessor r s = .error e) : Refused c r e := by
  rcases bind_eq_error.1 h with h | ⟨processor, -, h⟩
  · obtain ⟨failure, hfailure, rfl⟩ := mapError_eq_error.1 h
    exact .processor hs hfailure
  · cases h

theorem refused_of_buildAggregator (hv : c.Valid) {a : AggregatorConfig} (ha : a ∈ c.aggregators)
    (h : buildAggregator c r now a = .error e) : Refused c r e := by
  obtain ⟨failure, hfailure, rfl⟩ | ⟨failure, hfailure, rfl⟩ | ⟨aggregator, filter, h⟩ :=
    error_cases h
  · exact .aggregator ha hfailure
  · exact .filter (by simp [Config.filters, List.mem_map_of_mem ha]) hfailure
  · have hperiod : a.period.isZero = false := Duration.isZero_eq_false_iff.2 (hv.aggregators a ha)
    obtain ⟨failure, hfailure, -⟩ := mapError_eq_error.1 h
    simp [Running.make, hperiod] at hfailure

theorem refused_of_buildOutlet (hv : c.Valid) {o : OutputConfig} (ho : o ∈ c.outputs)
    (h : buildOutlet c r files now o = .error e) : Refused c r e := by
  obtain ⟨failure, hfailure, rfl⟩ | ⟨failure, hfailure, rfl⟩ | ⟨sink, filter, h⟩ := error_cases h
  · exact .sink ho hfailure
  · exact .filter (by simp [Config.filters, List.mem_map_of_mem ho]) hfailure
  · rcases bind_eq_error.1 h with h | ⟨ticker, -, h⟩
    · obtain ⟨failure, hfailure, -⟩ := mapError_eq_error.1 h
      exact absurd hfailure (ticker_ne_error (hv.flushIntervalOf_pos ho))
    · cases h

theorem refused_of_build (hv : c.Valid) (h : build c r files now = .error e) : Refused c r e := by
  unfold build at h
  rcases bind_eq_error.1 h with h | ⟨sources, -, h⟩
  · obtain ⟨s, hs, h⟩ := exists_of_mapM_eq_error h
    exact refused_of_buildSource hv hs h
  rcases bind_eq_error.1 h with h | ⟨processors, -, h⟩
  · obtain ⟨s, hs, h⟩ := exists_of_mapM_eq_error h
    exact refused_of_buildProcessor hs h
  rcases bind_eq_error.1 h with h | ⟨aggregators, -, h⟩
  · obtain ⟨a, ha, h⟩ := exists_of_mapM_eq_error h
    exact refused_of_buildAggregator hv ha h
  rcases bind_eq_error.1 h with h | ⟨outlets, -, h⟩
  · obtain ⟨o, ho, h⟩ := exists_of_mapM_eq_error h
    exact refused_of_buildOutlet hv ho h
  · cases h

/-- Whatever the sink says that it takes in one write, an output has batches that
suit its buffer. -/
theorem suits_of_buildOutlet (hv : c.Valid) {settings : OutputConfig}
    (hsettings : settings ∈ c.outputs) {o : Outlet}
    (h : buildOutlet c r files now settings = .ok o) : o.Suits c settings := by
  obtain ⟨-, hpos, hfits⟩ := hv.outputs settings hsettings
  obtain ⟨s, maxBatch, hmake, hbatch, hlimit⟩ := make_of_buildOutlet h
  have hsize : o.output.batchSize ≤ c.batchSizeOf settings := by
    simp only [hmake, Output.make, hbatch]
    omega
  have hcapacity : o.output.buffer.capacity = c.bufferLimitOf settings := by
    simp only [hmake, Output.make, Buffer.make, hlimit]
    omega
  exact ⟨hmake ▸ Output.batchSize_make_pos s maxBatch, hsize, hcapacity ▸ hsize.trans hfits,
    hcapacity⟩

/-- A configuration that passes the check can only fail to be built for what the
registry or a filter refuses, and never for an interval or a period. What is
built of it has batches of at least one metric that fit into their buffers, and
stages with a place in their queues. -/
theorem build_of_check (hcheck : c.check = .ok ()) (r : Registry) (files : Files)
    (now : Duration) :
    (∀ e, build c r files now = .error e →
      ((∀ t, e ≠ .ticker t) ∧ ∀ a, e ≠ .aggregator a) ∧ Refused c r e ∧
        e.errorClass = .fatalConfig) ∧
      ∀ p, build c r files now = .ok p →
        List.Forall₂ (Outlet.Suits c) c.outputs p.outlets ∧
          List.Forall₂ ProcessorStage.Suits c.processors p.processors := by
  have hv := Config.check_eq_ok_iff.1 hcheck
  refine ⟨fun e h => ?_, fun p h => ?_⟩
  · have hrefused := refused_of_build hv h
    refine ⟨⟨?_, ?_⟩, hrefused, rfl⟩
    · rintro t rfl
      cases hrefused
    · rintro a rfl
      cases hrefused
  · obtain ⟨-, hprocessors, -, houtlets⟩ := parts_of_build h
    refine ⟨(forall₂_of_mapM houtlets).imp ?_, (forall₂_of_mapM hprocessors).imp ?_⟩
    · rintro settings o ⟨hmem, hmade⟩
      exact suits_of_buildOutlet hv hmem hmade
    · rintro settings s ⟨hmem, hmade⟩
      exact ⟨hv.processors settings hmem, make_of_buildProcessor hmade⟩

/-- A configuration in which most is left to the agent. -/
def sparse : Config :=
  { Config.empty with
    agent := { AgentConfig.default with batchSize := 3, bufferLimit := 3 }
    sources := [.ofPlugin "silent"]
    processors := [{ ProcessorConfig.ofPlugin "clone" with workers := 2, queueSize := 1 }]
    aggregators := [.ofPlugin "merge"]
    outputs := [.ofPlugin "stingy", { OutputConfig.ofPlugin "discard" with bufferLimit := some 9 }] }

/-- The plugins of the agent, a source that measures nothing, and a sink that
says it takes no metric at all. -/
def meagre : Registry :=
  { Registry.builtin with
    sources := [("silent", fun _ => .ok fun _ => ⟨.zero, fun _ => [], none⟩)]
    sinks := ("stingy", fun _ => .ok (.planned { SinkPlan.reliable with maxBatch := some 0 })) ::
      Registry.builtin.sinks }

theorem build_of_check_sparse :
    sparse.check = .ok () ∧
      (∃ p, build sparse meagre ⟨.empty, []⟩ .zero = .ok p ∧
        (List.Forall₂ (Outlet.Suits sparse) sparse.outputs p.outlets ∧
          List.Forall₂ ProcessorStage.Suits sparse.processors p.processors) ∧
        p.outlets.map (fun o => (o.output.batchSize, o.output.buffer.capacity)) = [(1, 3), (3, 9)]) ∧
      ∃ e, build sparse .builtin ⟨.empty, []⟩ .zero = .error e ∧ Refused sparse .builtin e := by
  have hcheck : sparse.check = .ok () := by decide +kernel
  obtain ⟨-, hbuilt⟩ := build_of_check hcheck meagre ⟨.empty, []⟩ .zero
  obtain ⟨hrefused, -⟩ := build_of_check hcheck .builtin ⟨.empty, []⟩ .zero
  exact ⟨hcheck, ⟨_, rfl, hbuilt _ rfl, rfl⟩, _, rfl, (hrefused _ rfl).2.1⟩

end Pipeline

end MetricAgent
