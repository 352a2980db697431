import MetricAgent.Pipeline.Flow
import MetricAgent.Proofs.Buffer.Valid
import MetricAgent.Proofs.Metric.Integrity

/-!
# Outputs write well-formed metrics

An output buffers what its filter lets through, under another name perhaps, and
a batch is taken from what is buffered. So an output that keeps nothing but
well-formed metrics (`Output.Intact`) hands nothing else to its sink, which may
refuse them and may hand well-formed metrics in.
-/

namespace MetricAgent

def Reaction.Intact (r : Reaction) : Prop := ∀ m ∈ r.adds, m.WellFormed

namespace Output

def Intact (o : Output) : Prop := ∀ e ∈ o.buffer.contents, e.item.WellFormed

variable {o : Output} {m : Metric} {script : List Reaction}

theorem intact_make (s : OutputSettings) (maxBatch : Option Nat) : (make s maxBatch).Intact :=
  List.forall_mem_nil _

theorem Intact.add (h : o.Intact) (hm : m.WellFormed) : (o.add m).1.Intact := by
  unfold Output.add
  split
  · exact h
  · next n happly =>
    intro e he
    have hmem := (o.buffer.accounts_add (o.rename.apply n)).subset he
    rcases List.mem_append.1 hmem with hmem | hmem
    · exact h e hmem
    · rw [List.mem_singleton.1 hmem]
      exact (Filter.wellFormed_apply hm happly).rename o.rename

theorem Intact.addAll {ms : List Metric} (h : o.Intact) (hms : ∀ m ∈ ms, m.WellFormed) :
    (o.addAll ms).1.Intact := by
  induction ms generalizing o with
  | nil => exact h
  | cons m ms ih =>
      obtain ⟨hm, hrest⟩ := List.forall_mem_cons.1 hms
      exact ih (h.add hm) hrest

theorem Intact.wellFormed_beginWrite (h : o.Intact) (n : Nat) :
    ∀ m ∈ (o.beginWrite n).2.items, m.WellFormed := by
  intro m hm
  obtain ⟨e, he, rfl⟩ := List.mem_map.1 hm
  exact h e (List.mem_append_left _ ((o.buffer.batch_sublist n).subset he))

theorem Intact.endWrite (h : o.Intact) (batch : Batch Metric) (succeeded : Bool) :
    (o.endWrite batch succeeded).Intact := by
  intro e he
  unfold Output.endWrite at he
  split at he
  · have hmem : e ∈ (o.buffer.accept batch).contents := he
    rw [Buffer.contents_accept] at hmem
    exact h e (List.mem_of_mem_filter hmem)
  · exact h e ((o.buffer.accounts_reject batch).subset he)

theorem Intact.send {r : Reaction} (h : o.Intact) (hr : r.Intact) (batch : Batch Metric) :
    (o.send batch r).1.Intact := (h.addAll hr).endWrite batch _

/-- A flush has written well-formed metrics only, and nothing else is ahead. -/
structure Flush.Intact (f : Flush) : Prop where
  output : f.output.Intact
  script : ∀ r ∈ f.script, r.Intact
  log : ∀ w ∈ f.log, ∀ m ∈ w.metrics, m.WellFormed

theorem intact_nextReaction (h : ∀ r ∈ script, r.Intact) :
    (nextReaction script).1.Intact ∧ ∀ r ∈ (nextReaction script).2, r.Intact := by
  cases script with
  | nil => exact ⟨List.forall_mem_nil _, h⟩
  | cons r rest => exact List.forall_mem_cons.1 h

/-- One batch is written. -/
theorem Intact.sendNext (h : o.Intact) (hscript : ∀ r ∈ script, r.Intact) (n : Nat) :
    ((o.beginWrite n).1.send (o.beginWrite n).2 (nextReaction script).1).1.Intact ∧
      ∀ m ∈ ((o.beginWrite n).1.send (o.beginWrite n).2 (nextReaction script).1).2.metrics,
        m.WellFormed := by
  have hbegun : (o.beginWrite n).1.Intact := h
  exact ⟨hbegun.send (intact_nextReaction hscript).1 _, h.wellFormed_beginWrite n⟩

theorem Intact.writeBatch (h : o.Intact) (hscript : ∀ r ∈ script, r.Intact) :
    (o.writeBatch script).Intact := by
  obtain ⟨houtput, hmetrics⟩ := h.sendNext hscript o.batchSize
  simp only [Output.writeBatch]
  split
  · exact ⟨h, hscript, List.forall_mem_nil _⟩
  · exact ⟨houtput, (intact_nextReaction hscript).2, List.forall_mem_singleton.2 hmetrics⟩

theorem Intact.writeLoop (h : o.Intact) (hscript : ∀ r ∈ script, r.Intact)
    (fuel remaining : Nat) : (writeLoop fuel remaining o script).Intact := by
  induction fuel generalizing remaining o script with
  | zero => exact ⟨h, hscript, List.forall_mem_nil _⟩
  | succ fuel ih =>
      obtain ⟨houtput, hmetrics⟩ := h.sendNext hscript (min o.batchSize remaining)
      have hrest := (intact_nextReaction hscript).2
      simp only [Output.writeLoop]
      split
      · exact ⟨h, hscript, List.forall_mem_nil _⟩
      · split
        · exact ⟨houtput, hrest, List.forall_mem_singleton.2 hmetrics⟩
        · have hlast := ih houtput hrest
            (remaining - (o.beginWrite (min o.batchSize remaining)).2.length)
          exact ⟨hlast.output, hlast.script, List.forall_mem_cons.2 ⟨hmetrics, hlast.log⟩⟩

theorem Intact.write (h : o.Intact) (hscript : ∀ r ∈ script, r.Intact) :
    (o.write script).Intact := h.writeLoop hscript _ _

end Output

namespace OutputTask

structure Intact (o : OutputTask) : Prop where
  output : o.output.Intact
  writing : ∀ batch, o.writing = some batch → ∀ m ∈ batch.items, m.WellFormed

variable {o o' : OutputTask}

theorem intact_start {o : Output} (h : o.Intact) : (start o).Intact := ⟨h, nofun⟩

theorem Intact.offer {m : Metric} (h : o.Intact) (hm : m.WellFormed) : (o.offer m).Intact :=
  ⟨h.output.add hm, h.writing⟩

theorem intact_rest (h : o.output.Intact) : o.rest.Intact := ⟨h, nofun⟩

theorem Intact.stop (h : o.Intact) (hstop : o.stop = some o') : o'.Intact := by
  unfold OutputTask.stop at hstop
  split at hstop
  · cases hstop
    exact ⟨h.output, h.writing⟩
  · cases hstop

theorem Intact.step {a : LoopAction} (h : o.Intact) (hstep : o.step a = some o') : o'.Intact := by
  cases a with
  | tick =>
      simp only [OutputTask.step] at hstep
      split at hstep <;> cases hstep
      exact ⟨h.output, h.writing⟩
  | expire => exact h.stop hstep
  | wake =>
      simp only [OutputTask.step] at hstep
      split at hstep
      · simp only [Option.ite_none_right_eq_some, Option.some.injEq] at hstep
        obtain ⟨-, rfl⟩ := hstep
        exact ⟨h.output, h.writing⟩
      · cases hstep
  | write =>
      simp only [OutputTask.step] at hstep
      split at hstep
      · next remaining once _ _ =>
        split at hstep <;> cases hstep
        · exact intact_rest h.output
        · refine ⟨h.output, fun batch hbatch => ?_⟩
          cases hbatch
          exact h.output.wellFormed_beginWrite _
      · cases hstep
  | settle succeeded =>
      simp only [OutputTask.step] at hstep
      split at hstep
      · next remaining once batch _ _ =>
        have hended := h.output.endWrite batch succeeded
        split at hstep <;> cases hstep
        · exact ⟨hended, nofun⟩
        · exact intact_rest hended
      · cases hstep

end OutputTask

namespace Outlet

/-- What an outlet keeps is well-formed, and what its sink is going to hand in. -/
structure Intact (o : Outlet) : Prop where
  output : o.output.Intact
  script : ∀ r ∈ o.script, r.Intact
  refusals : ∀ r ∈ o.plan.refusals, r.Intact

end Outlet

def LogEntry.Intact (e : LogEntry) : Prop :=
  ∀ w, e.event = .write w → ∀ m ∈ w.metrics, m.WellFormed

namespace Outlet

variable {o : Outlet} {time : Nat} {now : Duration}

/-- A change keeps an outlet intact and logs well-formed metrics. -/
def Keeps (change : Outlet → Outlet × List LogEntry) : Prop :=
  ∀ o, o.Intact → (change o).1.Intact ∧ ∀ e ∈ (change o).2, e.Intact

theorem Intact.await (h : o.Intact) (now : Duration) : (o.await now).Intact := by
  unfold Outlet.await
  split <;> exact ⟨h.output, h.script, h.refusals⟩

theorem Intact.accept {m : Metric} (h : o.Intact) (hm : m.WellFormed) : (o.accept m).1.Intact := by
  simp only [Outlet.accept]
  split <;> exact ⟨h.output.add hm, h.script, h.refusals⟩

theorem Intact.ofFlush {f : Output.Flush} (h : o.Intact) (hf : f.Intact) : (o.ofFlush f).Intact := by
  refine ⟨hf.output, ?_, h.refusals⟩
  simp only [Outlet.ofFlush]
  split
  · exact h.refusals
  · exact hf.script

theorem intact_of_mem_entries {f : Output.Flush} (hf : f.Intact) {e : LogEntry}
    (he : e ∈ o.entries time (flushEvents f)) : e.Intact := by
  simp only [entries, flushEvents, List.map_map, List.mem_map, Function.comp_apply] at he
  obtain ⟨w, hw, rfl⟩ := he
  rintro v ⟨⟩
  exact hf.log w hw

theorem keeps_flushBatch (time : Nat) : Keeps fun o => o.flushBatch time := fun _ h =>
  have hflush := h.output.writeBatch h.script
  ⟨h.ofFlush hflush, fun _ => intact_of_mem_entries hflush⟩

theorem keeps_flush (time : Nat) : Keeps fun o => o.flush time := fun _ h =>
  have hflush := h.output.write h.script
  ⟨h.ofFlush hflush, fun _ => intact_of_mem_entries hflush⟩

theorem keeps_answerWake (time : Nat) (now : Duration) : Keeps fun o => o.answerWake time now := by
  intro o h
  obtain ⟨hfirst, hlog⟩ := keeps_flushBatch time { o with woken := false }
    ⟨h.output, h.script, h.refusals⟩
  simp only [answerWake]
  split
  · obtain ⟨hsecond, hlog'⟩ := keeps_flushBatch time
      { (({ o with woken := false } : Outlet).flushBatch time).1 with
        output := (({ o with woken := false } : Outlet).flushBatch time).1.output.takeWake.1 }
      ⟨hfirst.output, hfirst.script, hfirst.refusals⟩
    exact ⟨hsecond.await now, fun e he => (List.mem_append.1 he).elim (hlog e) (hlog' e)⟩
  · exact ⟨hfirst.await now, hlog⟩

theorem keeps_tick (time : Nat) (now : Duration) : Keeps fun o => o.tick time now := by
  intro o h
  obtain ⟨hflushed, hlog⟩ := keeps_flush time o h
  have hticked : ({ (o.flush time).1 with
      ticker := (o.flush time).1.ticker.finish } : Outlet).Intact :=
    ⟨hflushed.output, hflushed.script, hflushed.refusals⟩
  exact ⟨hticked.await now, hlog⟩

theorem keeps_finish (time : Nat) : Keeps fun o => o.finish time := by
  intro o h
  obtain ⟨hflushed, hlog⟩ := keeps_flush time o h
  refine ⟨hflushed, fun e he => ?_⟩
  rcases List.mem_append.1 he with he | he
  · exact hlog e he
  · obtain ⟨event, hevent, rfl⟩ := List.mem_map.1 he
    rw [List.mem_singleton.1 hevent]
    nofun

end Outlet
end MetricAgent
