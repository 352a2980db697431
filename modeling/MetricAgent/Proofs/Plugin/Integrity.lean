import MetricAgent.Plugin.Registry
import MetricAgent.Proofs.Aggregator.Integrity
import MetricAgent.Proofs.Outcomes
import MetricAgent.Proofs.Output.Integrity
import MetricAgent.Proofs.Processor.Integrity
import MetricAgent.Proofs.Source.Integrity

/-!
# The plugins of the agent are sound

Whatever the options are, the plugins that belong to the agent neither hand over
nor make metrics that are not well-formed.
-/

namespace MetricAgent

namespace Options

variable {options : Yaml.Value}

theorem sound_constant {s : Source} (h : constant options = .ok s) : s.Sound := by
  obtain ⟨c, -, hsource⟩ := bind_eq_ok.1 h
  exact c.sound_source (mapError_eq_ok.1 hsource)

theorem sound_copy {p : Processor} (h : copy options = .ok p) : p.Sound := by
  obtain ⟨c, -, hcopy⟩ := bind_eq_ok.1 h
  cases hcopy
  exact Processor.sound_copy c.rename c.tags

theorem sound_retag {p : Processor} (h : retag options = .ok p) : p.Sound := by
  obtain ⟨c, -, hretag⟩ := bind_eq_ok.1 h
  cases hretag
  exact Processor.sound_retag c.set c.remove c.overwrite

theorem intact_merge {a : Aggregator} (h : merge options = .ok a) : a.Intact := by
  obtain ⟨-, -, hmerge⟩ := bind_eq_ok.1 h
  cases hmerge
  exact List.forall_mem_nil _

theorem intact_final {a : Aggregator} (h : final options = .ok a) : a.Intact := by
  obtain ⟨timeout, -, hfinal⟩ := bind_eq_ok.1 h
  cases hfinal
  trivial

end Options

/-- No script of a sink hands in a metric that is not well-formed. -/
def Sink.Sound (s : Sink) : Prop := ∀ files, ∀ r ∈ (s.plan files).script, r.Intact

namespace Sink

theorem sound_discard : Sound .discard := fun _ => List.forall_mem_nil _

theorem sound_file (f : FileSink) : Sound (.file f) := by
  intro files
  simp only [plan]
  split <;> exact List.forall_mem_nil _

end Sink

theorem SinkPlan.intact_refusals (p : SinkPlan) : ∀ r ∈ p.refusals, r.Intact := by
  intro r hr
  rw [refusals, Option.mem_toList, Option.map_eq_some_iff] at hr
  obtain ⟨text, -, rfl⟩ := hr
  exact List.forall_mem_nil _

namespace Options

variable {options : Yaml.Value} {s : Sink}

theorem sound_discard (h : discard options = .ok s) : s.Sound := by
  obtain ⟨-, -, hdiscard⟩ := bind_eq_ok.1 h
  cases hdiscard
  exact Sink.sound_discard

theorem sound_file (h : file options = .ok s) : s.Sound := by
  obtain ⟨c, -, hfile⟩ := bind_eq_ok.1 h
  split at hfile
  · next f _ =>
    cases hfile
    exact Sink.sound_file f
  · cases hfile

end Options

namespace Registry

variable {name : String} {options : Yaml.Value}

theorem exists_factory {α : Type} {cls : PluginClass} {factories : List (String × Factory α)}
    {a : α} (h : build cls factories name options = .ok a) :
    ∃ f ∈ factories, f.2 options = .ok a := by
  unfold build at h
  split at h
  · cases h
  · next factory hlookup =>
    obtain ⟨before, after, rfl, -⟩ := List.lookup_eq_some_iff.1 hlookup
    exact ⟨(name, factory), List.mem_append_right _ List.mem_cons_self, mapError_eq_ok.1 h⟩

theorem sound_source {s : Source} (h : builtin.source name options = .ok s) : s.Sound := by
  obtain ⟨f, hf, hmade⟩ := exists_factory h
  obtain rfl := List.mem_singleton.1 hf
  exact Options.sound_constant hmade

theorem sound_sink {s : Sink} (h : builtin.sink name options = .ok s) : s.Sound := by
  obtain ⟨f, hf, hmade⟩ := exists_factory h
  rcases List.mem_cons.1 hf with rfl | hf
  · exact Options.sound_discard hmade
  · obtain rfl := List.mem_singleton.1 hf
    exact Options.sound_file hmade

theorem sound_processor {p : Processor} (h : builtin.processor name options = .ok p) :
    p.Sound := by
  obtain ⟨f, hf, hmade⟩ := exists_factory h
  rcases List.mem_cons.1 hf with rfl | hf
  · exact Options.sound_copy hmade
  · obtain rfl := List.mem_singleton.1 hf
    exact Options.sound_retag hmade

theorem intact_aggregator {a : Aggregator} (h : builtin.aggregator name options = .ok a) :
    a.Intact := by
  obtain ⟨f, hf, hmade⟩ := exists_factory h
  rcases List.mem_cons.1 hf with rfl | hf
  · exact Options.intact_merge hmade
  · obtain rfl := List.mem_singleton.1 hf
    exact Options.intact_final hmade

end Registry

end MetricAgent
