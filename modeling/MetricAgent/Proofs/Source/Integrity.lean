import MetricAgent.Proofs.Metric.Integrity
import MetricAgent.Source.Constant

/-!
# Sources send well-formed metrics

A measurement becomes a metric only if it has a name and fields, and the maker
of a source renames it, adds tags and filters it last. So a gatherer sends
well-formed metrics of whatever its source measures; only a metric that a source
hands over ready-made has to be well-formed by itself (`Source.Sound`).
-/

namespace MetricAgent

def Call.Sound (c : Call) : Prop := ∀ m, c = .metric m → m.WellFormed

def Gather.Sound (work : Gather) : Prop := ∀ clock, ∀ c ∈ work.calls clock, c.Sound

def Source.Sound (s : Source) : Prop := ∀ n, (s n).Sound

theorem ConstantConfig.sound_source {c : ConstantConfig} {s : Source} (h : c.source = .ok s) :
    Source.Sound s := by
  unfold source at h
  split at h
  · cases h
  · split at h
    · cases h
    · cases h
      intro n clock call hcall m hm
      rw [List.mem_singleton.1 hcall] at hm
      cases hm

namespace Accumulator

/-- What an accumulator lets through, and what it has sent, is well-formed. -/
structure Intact (a : Accumulator) : Prop where
  maker : ∀ m n, m.WellFormed → a.maker m = some n → n.WellFormed
  sent : ∀ m ∈ a.sent, m.WellFormed

variable {a : Accumulator} {m : Metric}

theorem Intact.send (h : a.Intact) (hm : m.WellFormed) : (a.send m).Intact := by
  unfold Accumulator.send
  split
  · exact h
  · next n hmade =>
    refine ⟨h.maker, ?_⟩
    dsimp only
    split
    · exact List.forall_mem_append.2 ⟨h.sent, List.forall_mem_singleton.2 (h.maker m n hm hmade)⟩
    · exact h.sent

theorem Intact.addError (h : a.Intact) (text : String) : (a.addError text).Intact :=
  ⟨h.maker, h.sent⟩

theorem Intact.call (h : a.Intact) {c : Call} (hc : c.Sound) (precision : Duration)
    (now : Timestamp) : (a.call precision now c).Intact := by
  cases c with
  | measure name fields tags timestamp kind =>
      simp only [Accumulator.call]
      split
      · next m hmade => exact h.send (((Metric.wellFormed_make hmade).addTags tags).withKind kind)
      · exact h.addError _
  | metric m => exact h.send (hc m rfl)
  | error text => exact h.addError text

theorem Intact.callAll (h : a.Intact) {calls : List Call} (hcalls : ∀ c ∈ calls, c.Sound)
    (precision : Duration) (now : Timestamp) : (a.callAll precision now calls).Intact :=
  List.foldlRecOn (motive := Intact) calls _ h fun _ hb c hc => hb.call (hcalls c hc) precision now

theorem Intact.receive (h : a.Intact) :
    a.receive.1.Intact ∧ ∀ m ∈ a.receive.2, m.WellFormed :=
  ⟨⟨h.maker, List.forall_mem_nil _⟩, h.sent⟩

end Accumulator

/-- The maker of a source filters last. -/
theorem GatherSettings.wellFormed_maker {s : GatherSettings} {m n : Metric} (hm : m.WellFormed)
    (h : s.maker m = some n) : n.WellFormed := by
  have hprepared := ((hm.rename s.rename).addMissingTags s.tags).addMissingTags s.globalTags
  exact Filter.wellFormed_apply hprepared h

namespace Gatherer

def Intact (g : Gatherer) : Prop := g.accumulator.Intact

theorem intact_make (s : GatherSettings) : (make s).Intact :=
  ⟨fun _ _ => s.wellFormed_maker, List.forall_mem_nil _⟩

/-- After a gather there are only well-formed metrics to receive. -/
theorem Intact.gather {g : Gatherer} (h : g.Intact) {work : Gather} (hwork : work.Sound)
    (clock now : Timestamp) : (g.gather work clock now).1.Intact := by
  have hcalled := Accumulator.Intact.callAll h (hwork clock) g.precision now
  cases hfailure : work.failure with
  | none =>
      simp only [Gatherer.gather, hfailure]
      exact ⟨hcalled.maker, hcalled.sent⟩
  | some text =>
      simp only [Gatherer.gather, hfailure]
      exact ⟨hcalled.maker, hcalled.sent⟩

end Gatherer

end MetricAgent
