import Mathlib.Data.List.Forall2
import MetricAgent.Proofs.Pipeline.Returning
import MetricAgent.Proofs.Pipeline.Runs

/-!
# The lifecycle of sinks

Sinks are connected in their order. If one cannot be, those before it are closed
again, nothing is written, and its error is returned. Otherwise every sink is
closed once, after its last write, whatever fails on the way, and no error is
returned; and from wherever the tasks have come to, there is a way to the return.
This is so for every order of the events of a `Service` (`Service.Lifecycle`) and
in the log of a `Pipeline.run` (`RunReport.Lifecycle`).

For the log, all that a run does before its outlets are finished is `Onward`:
it adds writes to the log and leaves the outlets what they are called.
-/

namespace MetricAgent

namespace SinkCall

variable {calls : List (Nat × SinkCall)} {i : Nat} {c : SinkCall} {text : String}

theorem mem_callsTo : c ∈ callsTo calls i ↔ (i, c) ∈ calls := by
  simp only [callsTo, List.mem_filterMap, Option.ite_none_right_eq_some, Option.some.injEq]
  constructor
  · rintro ⟨⟨j, d⟩, hmem, rfl, rfl⟩
    exact hmem
  · exact fun hmem => ⟨(i, c), hmem, rfl, rfl⟩

theorem Opened.not_refused {cs : List SinkCall} (h : Opened cs) : .connect (some text) ∉ cs := by
  obtain ⟨written, rfl⟩ := h
  simp

theorem Closed.not_refused {cs : List SinkCall} (h : Closed cs) : .connect (some text) ∉ cs := by
  obtain ⟨written, failure, rfl⟩ := h
  simp

end SinkCall

namespace Service

open SinkCall (callsTo connects Opened Closed)

structure Lifecycle (p : Pipeline) (s : Service) : Prop where
  /-- Sinks are connected in their order, each at most once. -/
  order : ∃ k ≤ p.outlets.length, connects s.calls = List.range k
  /-- A sink is written to only between its connect and its close. -/
  sinks : ∀ i, callsTo s.calls i = [] ∨ (∃ text, callsTo s.calls i = [.connect (some text)]) ∨
    Opened (callsTo s.calls i) ∨ Closed (callsTo s.calls i)
  /-- If one cannot be connected, those before it are closed once, those behind
  it are left alone, none is written to, and its error is returned. -/
  refused : ∀ i text, (i, .connect (some text)) ∈ s.calls →
    callsTo s.calls i = [.connect (some text)] ∧ (∀ j, i < j → callsTo s.calls j = []) ∧
      (∀ j < i, callsTo s.calls j = [.connect none] ∨
        ∃ failure, callsTo s.calls j = [.connect none, .close failure]) ∧
      ∀ failure, s.phase = .returned failure →
        (∀ j < i, ∃ f, callsTo s.calls j = [.connect none, .close f]) ∧
          ∃ o, p.outlets[i]? = some o ∧ failure = some (.connect o.output.name text)
  /-- If all can be, every sink has been closed after its last write when the
  service returns, which it does without an error. -/
  served : (∀ i text, (i, .connect (some text)) ∉ s.calls) → ∀ failure,
    s.phase = .returned failure →
      failure = none ∧ ∀ i < p.outlets.length, Closed (callsTo s.calls i)
  /-- While it is up, there is a way to its return, and no answer to a last flush
  or a close keeps it from it. -/
  returns : ∀ {c r files now}, Pipeline.build c r files now = .ok p → s.phase.isUp = true →
    ∃ more, ∀ answers : List (List (Option String) × Option String),
      answers.length = p.outlets.length →
        (s.run (more ++ answers.map fun a => .finish a.1 a.2)).phase = .returned none
  /-- After a connect that fails only the closes stand before the return. -/
  returns_refused : ∀ i, s.phase = .connecting i → ∀ text (answers : List (Option String)),
    answers.length = i → ∃ o, p.outlets[i]? = some o ∧
      (s.run (.connect (some text) :: answers.map .undo)).phase =
        .returned (some (.connect o.output.name text))
  /-- When the flush loops have ended, only the last flushes and the closes do,
  whatever the sinks answer. -/
  returns_served : ∀ i, s.phase = .finishing i →
    ∀ answers : List (List (Option String) × Option String),
      answers.length = p.outlets.length - i →
        (s.run (answers.map fun a => .finish a.1 a.2)).phase = .returned none

variable {p : Pipeline} {s : Service} {calls : List (Nat × SinkCall)} {i done failed : Nat}
  {e : OutputError} {text : String}

theorem Served.sinks (h : Served p calls done) (i : Nat) :
    callsTo calls i = [] ∨ (∃ text, callsTo calls i = [.connect (some text)]) ∨
      Opened (callsTo calls i) ∨ Closed (callsTo calls i) := by
  by_cases hi : i < p.outlets.length
  · by_cases hdone : i < done
    · exact .inr (.inr (.inr (h.closed i hdone)))
    · exact .inr (.inr (.inl (h.opened i (Nat.not_lt.1 hdone) hi)))
  · exact .inl (h.untouched i (Nat.not_lt.1 hi))

theorem Served.not_refused (h : Served p calls done) : (i, .connect (some text)) ∉ calls := by
  rw [← SinkCall.mem_callsTo]
  by_cases hi : i < p.outlets.length
  · by_cases hdone : i < done
    · exact (h.closed i hdone).not_refused
    · exact (h.opened i (Nat.not_lt.1 hdone) hi).not_refused
  · rw [h.untouched i (Nat.not_lt.1 hi)]
    exact List.not_mem_nil

theorem Refused.sinks (h : Refused p calls failed done e) (i : Nat) :
    callsTo calls i = [] ∨ (∃ text, callsTo calls i = [.connect (some text)]) ∨
      Opened (callsTo calls i) ∨ Closed (callsTo calls i) := by
  rcases Nat.lt_trichotomy i failed with hlt | rfl | hgt
  · by_cases hdone : i < done
    · obtain ⟨failure, hcalls⟩ := h.closed i hdone
      exact .inr (.inr (.inr ⟨[], failure, hcalls⟩))
    · exact .inr (.inr (.inl ⟨[], h.opened i (Nat.not_lt.1 hdone) hlt⟩))
  · obtain ⟨o, text, -, hcalls, -⟩ := h.refusal
    exact .inr (.inl ⟨text, hcalls⟩)
  · exact .inl (h.untouched i hgt)

/-- Only one sink has refused. -/
theorem Refused.eq_of_mem (h : Refused p calls failed done e)
    (hmem : (i, .connect (some text)) ∈ calls) : i = failed := by
  rw [← SinkCall.mem_callsTo] at hmem
  rcases Nat.lt_trichotomy i failed with hlt | rfl | hgt
  · by_cases hdone : i < done
    · obtain ⟨failure, hcalls⟩ := h.closed i hdone
      rw [hcalls] at hmem
      simp at hmem
    · rw [h.opened i (Nat.not_lt.1 hdone) hlt] at hmem
      simp at hmem
  · rfl
  · rw [h.untouched i hgt] at hmem
    cases hmem

theorem Refused.callsTo_eq (h : Refused p calls failed done e)
    (hmem : (failed, .connect (some text)) ∈ calls) :
    callsTo calls failed = [.connect (some text)] ∧
      ∃ o, p.outlets[failed]? = some o ∧ e = .connect o.output.name text := by
  obtain ⟨o, said, ho, hcalls, he⟩ := h.refusal
  rw [← SinkCall.mem_callsTo, hcalls] at hmem
  simp only [List.mem_singleton, SinkCall.connect.injEq, Option.some.injEq] at hmem
  subst hmem
  exact ⟨hcalls, o, ho, he⟩

theorem Course.order {phase : ServicePhase} (h : Course p calls phase) :
    ∃ k ≤ p.outlets.length, connects calls = List.range k := by
  have hrefused {failed done : Nat} {e : OutputError} (h : Refused p calls failed done e) :
      ∃ k ≤ p.outlets.length, connects calls = List.range k := by
    obtain ⟨o, -, ho, -, -⟩ := h.refusal
    exact ⟨failed + 1, (List.getElem?_eq_some_iff.1 ho).1, h.order⟩
  cases h with
  | connecting hi order _ _ => exact ⟨_, Nat.le_of_lt hi, order⟩
  | undoing _ h | undone h => exact hrefused h
  | up _ h | finishing _ h | finished h => exact ⟨_, Nat.le_refl _, h.order⟩

theorem Course.sinks {phase : ServicePhase} (h : Course p calls phase) (i : Nat) :
    callsTo calls i = [] ∨ (∃ text, callsTo calls i = [.connect (some text)]) ∨
      Opened (callsTo calls i) ∨ Closed (callsTo calls i) := by
  cases h with
  | @connecting k _ _ opened untouched =>
      by_cases hlt : i < k
      · exact .inr (.inr (.inl ⟨[], opened i hlt⟩))
      · exact .inl (untouched i (Nat.not_lt.1 hlt))
  | undoing _ h | undone h => exact h.sinks i
  | up _ h | finishing _ h | finished h => exact h.sinks i

theorem Course.refused {phase : ServicePhase} (h : Course p calls phase)
    (hmem : (i, .connect (some text)) ∈ calls) :
    ∃ done e, Refused p calls i done e ∧
      ∀ failure, phase = .returned failure → done = i ∧ failure = some e := by
  cases h with
  | @connecting k _ _ opened untouched =>
      rw [← SinkCall.mem_callsTo] at hmem
      by_cases hlt : i < k
      · rw [opened i hlt] at hmem
        simp at hmem
      · rw [untouched i (Nat.not_lt.1 hlt)] at hmem
        cases hmem
  | undoing _ h =>
      have hi := h.eq_of_mem hmem
      subst hi
      exact ⟨_, _, h, nofun⟩
  | undone h =>
      have hi := h.eq_of_mem hmem
      subst hi
      exact ⟨_, _, h, fun _ hphase => by cases hphase; exact ⟨rfl, rfl⟩⟩
  | up _ h | finishing _ h | finished h => exact absurd hmem h.not_refused

theorem Course.served_of_returned {failure : Option OutputError}
    (h : Course p calls (.returned failure))
    (hall : ∀ i text, (i, .connect (some text)) ∉ calls) :
    failure = none ∧ ∀ i < p.outlets.length, Closed (callsTo calls i) := by
  cases h with
  | @undone failed _ h =>
      obtain ⟨o, text, -, hcalls, -⟩ := h.refusal
      refine absurd ?_ (hall failed text)
      rw [← SinkCall.mem_callsTo, hcalls]
      exact List.mem_singleton.2 rfl
  | up hup _ => cases hup
  | finished h => exact ⟨rfl, h.closed⟩

/-- A sink that cannot be connected ends the service, which closes the others
first. -/
theorem phase_run_refused {o : OutputTask} {answers : List (Option String)}
    (hphase : s.phase = .connecting i) (ho : s.outputs[i]? = some o)
    (hanswers : answers.length = i) :
    (s.run (.connect (some text) :: answers.map .undo)).phase =
      .returned (some (.connect o.output.name text)) := by
  have hnext : (s.next (.connect (some text))).phase =
      undoFrom i 0 (.connect o.output.name text) := by
    simp only [Service.next, Service.step, hphase, ho]
    rfl
  exact phase_run_undo (s := s.next (.connect (some text))) hnext hanswers

theorem lifecycle_run (p : Pipeline) (events : List ServiceEvent) :
    ((start p).run events).Lifecycle p := by
  have hlawful := (lawful_start p).run events
  have hreturn : ∀ {c r files now}, Pipeline.build c r files now = .ok p → _ :=
    fun hbuild => exists_return hbuild events
  generalize (start p).run events = s at hlawful hreturn
  have hlength := length_of_names hlawful.names
  refine ⟨hlawful.course.order, hlawful.course.sinks, fun i text hmem => ?_,
    fun hall failure hphase => (hphase ▸ hlawful.course).served_of_returned hall, hreturn,
    fun i hphase text answers hanswers => ?_, fun i hphase answers hanswers => ?_⟩
  · obtain ⟨done, e, hrefused, hreturned⟩ := hlawful.course.refused hmem
    obtain ⟨hself, o, ho, rfl⟩ := hrefused.callsTo_eq hmem
    refine ⟨hself, hrefused.untouched, fun j hj => ?_, fun failure hphase => ?_⟩
    · by_cases hdone : j < done
      · exact .inr (hrefused.closed j hdone)
      · exact .inl (hrefused.opened j (Nat.not_lt.1 hdone) hj)
    · obtain ⟨rfl, rfl⟩ := hreturned failure hphase
      exact ⟨hrefused.closed, o, ho, rfl⟩
  · have hi : i < s.outputs.length := by
      rw [hlength]
      cases hphase ▸ hlawful.course with
      | connecting hi => exact hi
      | up hup _ => cases hup
    obtain ⟨o, ho, hname⟩ := exists_outlet hlawful.names (List.getElem?_eq_getElem hi)
    refine ⟨o, ho, ?_⟩
    rw [hname]
    exact phase_run_refused hphase (List.getElem?_eq_getElem hi) hanswers
  · have hi : i < s.outputs.length := by
      rw [hlength]
      cases hphase ▸ hlawful.course with
      | finishing hi => exact hi
      | up hup _ => cases hup
    exact phase_run_finish (by rw [hphase, finishFrom, if_pos hi]) (by rw [hanswers, hlength])

end Service

def LogEntry.IsWrite (e : LogEntry) : Prop := ∃ w, e.event = .write w

namespace Outlet

def label (o : Outlet) : String × Sink := (o.output.name, o.sink)

variable {o o' : Outlet}

theorem entries_congr (h : o'.label = o.label) : o'.entries = o.entries := by
  obtain ⟨hname, hsink⟩ := Prod.mk.inj h
  funext time events
  simp only [entries, hname, hsink]

theorem isWrite_of_mem_entries {time : Nat} {f : Output.Flush} {e : LogEntry}
    (h : e ∈ o.entries time (flushEvents f)) : e.IsWrite := by
  simp only [entries, flushEvents, List.map_map, List.mem_map, Function.comp_apply] at h
  obtain ⟨w, -, rfl⟩ := h
  exact ⟨w, rfl⟩

theorem label_await (o : Outlet) (now : Duration) : (o.await now).label = o.label := by
  unfold await
  split <;> rfl

theorem label_accept (o : Outlet) (m : Metric) : (o.accept m).1.label = o.label := by
  have hname := o.output.name_add m
  simp only [accept]
  split <;> simp only [label, Output.takeWake, hname]

/-- A change of an outlet that flushes it, perhaps, but neither renames nor closes
it. -/
def Flushes (change : Outlet → Outlet × List LogEntry) : Prop :=
  ∀ o, (change o).1.label = o.label ∧ ∀ e ∈ (change o).2, e.IsWrite

theorem flushes_flushBatch (time : Nat) : Flushes fun o => o.flushBatch time := fun o =>
  ⟨by simp only [flushBatch, label, ofFlush, Output.reportOverflow, Output.name_writeBatch],
    fun _ => isWrite_of_mem_entries⟩

theorem flushes_flush (time : Nat) : Flushes fun o => o.flush time := fun o =>
  ⟨by simp only [flush, label, ofFlush, Output.reportOverflow, Output.name_write],
    fun _ => isWrite_of_mem_entries⟩

theorem flushes_answerWake (time : Nat) (now : Duration) :
    Flushes fun o => o.answerWake time now := by
  intro o
  obtain ⟨hlabel, hwrites⟩ := flushes_flushBatch time { o with woken := false }
  simp only [answerWake]
  split
  · obtain ⟨hlabel', hwrites'⟩ := flushes_flushBatch time
      { (({ o with woken := false } : Outlet).flushBatch time).1 with
        output := (({ o with woken := false } : Outlet).flushBatch time).1.output.takeWake.1 }
    refine ⟨(label_await ..).trans (hlabel'.trans hlabel), fun e he => ?_⟩
    rcases List.mem_append.1 he with hfirst | hsecond
    · exact hwrites e hfirst
    · exact hwrites' e hsecond
  · exact ⟨(label_await ..).trans hlabel, hwrites⟩

theorem flushes_tick (time : Nat) (now : Duration) : Flushes fun o => o.tick time now := by
  intro o
  obtain ⟨hlabel, hwrites⟩ := flushes_flush time o
  exact ⟨(label_await ..).trans hlabel, hwrites⟩

/-- The last writes of an outlet stand before its close. -/
theorem finish_eq (o : Outlet) (time : Nat) : (o.finish time).1.label = o.label ∧
    ∃ writes : List SinkWrite,
      (o.finish time).2 = o.entries time (writes.map .write ++ [.close]) := by
  obtain ⟨hlabel, -⟩ := flushes_flush time o
  refine ⟨hlabel, (o.output.write o.script).log, ?_⟩
  simp only [finish, close]
  rw [entries_congr hlabel]
  simp only [flush, flushEvents, entries, List.map_append]

/-- What the end of a run adds to the log for an outlet: its last writes and its
close. -/
def IsEnd (o : Outlet) (entries : List LogEntry) : Prop :=
  ∃ (time : Nat) (writes : List SinkWrite), entries = o.entries time (writes.map .write ++ [.close])

theorem forall₂_isEnd_congr {os os' : List Outlet} {ends : List (List LogEntry)}
    (h : os'.map label = os.map label) (hends : List.Forall₂ IsEnd os ends) :
    List.Forall₂ IsEnd os' ends := by
  induction hends generalizing os' with
  | nil =>
      rw [List.map_eq_nil_iff.1 h]
      exact .nil
  | cons hend _ ih =>
      obtain ⟨o', rest, rfl, hlabel, hrest⟩ := List.map_eq_cons_iff.1 h
      obtain ⟨time, writes, hentries⟩ := hend
      exact .cons ⟨time, writes, by rw [hentries, entries_congr hlabel]⟩ (ih hrest)

end Outlet

namespace PipelineRun

def labels (r : PipelineRun) : List (String × Sink) := r.pipeline.outlets.map Outlet.label

/-- A run has gone on: it has written, and no outlet has got another label. -/
structure Onward (r r' : PipelineRun) : Prop where
  labels : r'.labels = r.labels
  log : ∃ writes : List LogEntry, r'.log = r.log ++ writes ∧ ∀ e ∈ writes, e.IsWrite

variable {r r' r'' : PipelineRun}

theorem Onward.trans (h : Onward r r') (h' : Onward r' r'') : Onward r r'' := by
  obtain ⟨writes, hlog, hwrites⟩ := h.log
  obtain ⟨writes', hlog', hwrites'⟩ := h'.log
  refine ⟨h'.labels.trans h.labels, writes ++ writes', ?_, fun e he => ?_⟩
  · rw [hlog', hlog, List.append_assoc]
  · exact (List.mem_append.1 he).elim (hwrites e) (hwrites' e)

theorem onward_of_eq (hlabels : r'.labels = r.labels) (hlog : r'.log = r.log) : Onward r r' :=
  ⟨hlabels, [], by rw [hlog, List.append_nil], nofun⟩

theorem Onward.refl (r : PipelineRun) : Onward r r := onward_of_eq rfl rfl

/-- Neither the labels nor the log are touched before a run goes on. -/
theorem Onward.of_eq (h : Onward r' r'') (hlabels : r'.labels = r.labels) (hlog : r'.log = r.log) :
    Onward r r'' := (onward_of_eq hlabels hlog).trans h

theorem onward_onOutlet {change : Outlet → Outlet × List LogEntry} (h : Outlet.Flushes change)
    (r : PipelineRun) (i : Nat) : Onward r (r.onOutlet i change) := by
  unfold onOutlet
  split
  · exact .refl r
  · next o ho =>
    obtain ⟨hlabel, hwrites⟩ := h o
    refine ⟨?_, _, rfl, hwrites⟩
    obtain ⟨hi, rfl⟩ := List.getElem?_eq_some_iff.1 ho
    simp only [labels, List.map_set, hlabel]
    rw [← List.getElem_map Outlet.label (h := by simpa using hi), List.set_getElem_self]

theorem labels_deliver (m : Metric) (i : Nat) (outlets : List Outlet) :
    (deliver m i outlets).1.map Outlet.label = outlets.map Outlet.label := by
  induction outlets generalizing i with
  | nil => rfl
  | cons o rest ih =>
      simp only [deliver, List.map_cons]
      rw [o.label_accept, ih]

theorem labels_deliverAll (ms : List Metric) (outlets : List Outlet) :
    (deliverAll ms outlets).1.map Outlet.label = outlets.map Outlet.label := by
  induction ms generalizing outlets with
  | nil => rfl
  | cons m ms ih => exact (ih _).trans (labels_deliver m 0 outlets)

theorem onward_sendOut (r : PipelineRun) (ms : List Metric) : Onward r (r.sendOut ms) := by
  have hdelivered : Onward r
      { r with pipeline := { r.pipeline with outlets := (deliverAll ms r.pipeline.outlets).1 } } :=
    onward_of_eq (labels_deliverAll ms r.pipeline.outlets) rfl
  exact List.foldlRecOn (motive := Onward r) _ _ hdelivered fun s hs i _ =>
    hs.trans (onward_onOutlet (Outlet.flushes_answerWake s.time s.now) s i)

theorem onward_feed (r : PipelineRun) (ms : List Metric) : Onward r (r.feed ms) := by
  simp only [feed]
  exact (onward_sendOut ..).of_eq rfl rfl

theorem onward_onAggregators (r : PipelineRun) (e : StageEvent) : Onward r (r.onAggregators e) := by
  simp only [onAggregators]
  exact (onward_sendOut ..).of_eq rfl rfl

theorem onward_endGather (r : PipelineRun) (wall : Timestamp) (i : Nat) (s : ScheduledSource)
    (work : Gather) : Onward r (r.endGather wall i s work) := by
  simp only [endGather]
  exact (onward_feed ..).of_eq rfl rfl

theorem onward_beginGather (r : PipelineRun) (wall : Timestamp) (i : Nat) (s : ScheduledSource) :
    Onward r (r.beginGather wall i s) := by
  simp only [beginGather]
  split
  · exact onward_endGather ..
  · exact onward_of_eq rfl rfl

theorem onward_handle (r : PipelineRun) (wall : Timestamp) (due : Due) :
    Onward r (r.handle wall due) := by
  cases due with
  | gathered i =>
      simp only [handle]
      split
      · split
        · exact onward_endGather ..
        · exact .refl r
      · exact .refl r
  | gather i =>
      simp only [handle]
      split
      · exact onward_beginGather ..
      · exact .refl r
  | push => exact onward_onAggregators r .timer
  | flush i => exact onward_onOutlet (Outlet.flushes_tick r.time r.now) r i

theorem onward_stopLoops (r : PipelineRun) : Onward r r.stopLoops := by
  refine onward_of_eq ?_ rfl
  simp only [labels, stopLoops, List.map_map]
  rfl

/-- After some outlets have been finished, the log ends with what that added. -/
theorem exists_ends_finish (r : PipelineRun) {k : Nat} (hk : k ≤ r.pipeline.outlets.length) :
    let last := (List.range k).foldl (fun r i => r.onOutlet i fun o => o.finish r.time) r
    last.labels = r.labels ∧ ∃ ends : List (List LogEntry), last.log = r.log ++ ends.flatten ∧
      List.Forall₂ Outlet.IsEnd (r.pipeline.outlets.take k) ends := by
  induction k with
  | zero => exact ⟨rfl, [], by simp, .nil⟩
  | succ k ih =>
      obtain ⟨hlabels, ends, hlog, hends⟩ := ih (Nat.le_of_succ_le hk)
      rw [List.range_succ, List.foldl_append]
      generalize (List.range k).foldl (fun r i => r.onOutlet i fun o => o.finish r.time) r = s
        at hlabels hlog
      have hlt : k < s.pipeline.outlets.length := by
        have hlength := congrArg List.length hlabels
        simp only [labels, List.length_map] at hlength
        omega
      have hlabel : s.pipeline.outlets[k].label = (r.pipeline.outlets[k]).label := by
        have hget : s.labels[k]? = r.labels[k]? := by rw [hlabels]
        simpa only [labels, List.getElem?_map, List.getElem?_eq_getElem hlt,
          List.getElem?_eq_getElem hk, Option.map_some, Option.some.injEq] using hget
      obtain ⟨hkept, writes, hfinish⟩ := s.pipeline.outlets[k].finish_eq s.time
      have hnext : s.onOutlet k (fun o => o.finish s.time) = { s with
          pipeline := { s.pipeline with
            outlets := s.pipeline.outlets.set k (s.pipeline.outlets[k].finish s.time).1 }
          log := s.log ++ (s.pipeline.outlets[k].finish s.time).2 } := by
        simp only [onOutlet, List.getElem?_eq_getElem hlt]
      rw [List.foldl_cons, List.foldl_nil, hnext]
      refine ⟨?_, ends ++ [(s.pipeline.outlets[k].finish s.time).2], ?_, ?_⟩
      · simp only [labels, List.map_set, hkept]
        rw [← List.getElem_map Outlet.label (h := by simpa using hlt), List.set_getElem_self]
        exact hlabels
      · simp only [hlog, List.flatten_append, List.flatten_singleton, List.append_assoc]
      · rw [List.take_succ_eq_append_getElem hk]
        refine List.rel_append hends (.cons ⟨s.time, writes, ?_⟩ .nil)
        rw [hfinish, Outlet.entries_congr hlabel]

theorem connectAll_served {outlets : List Outlet} (before : List Outlet)
    (h : ∀ o ∈ outlets, o.plan.connectFailure = none) :
    connectAll before outlets = (outlets.flatMap fun o => o.entries 0 [.connect], none) := by
  induction outlets generalizing before with
  | nil => rfl
  | cons o rest ih =>
      have ho : o.plan.connectFailure = none := h o List.mem_cons_self
      have hrest := ih (o :: before) fun o' ho' => h o' (List.mem_cons_of_mem o ho')
      simp only [connectAll, Outlet.connect, ho, Option.map_none, hrest, List.flatMap_cons]

theorem connectAll_refused {o : Outlet} {text : String}
    (ho : o.plan.connectFailure = some text) (done : List Outlet) {before : List Outlet}
    (h : ∀ b ∈ before, b.plan.connectFailure = none) (behind : List Outlet) :
    connectAll done (before ++ o :: behind) =
      ((before ++ [o]).flatMap (fun o => o.entries 0 [.connect]) ++
        (done.reverse ++ before).flatMap fun o => o.entries 0 [.close],
        some (.connect o.output.name text)) := by
  induction before generalizing done with
  | nil =>
      simp only [List.nil_append, connectAll, Outlet.connect, ho, Option.map_some, List.append_nil,
        List.flatMap_singleton, Outlet.close]
  | cons b before ih =>
      have hb : b.plan.connectFailure = none := h b List.mem_cons_self
      have hrest := ih (b :: done) fun b' hb' => h b' (List.mem_cons_of_mem b hb')
      have hdone : (b :: done).reverse ++ before = done.reverse ++ b :: before := by simp
      rw [hdone] at hrest
      simp only [List.cons_append, connectAll, Outlet.connect, hb, Option.map_none, hrest,
        List.flatMap_cons, List.append_assoc]

end PipelineRun

structure RunReport.Lifecycle (p : Pipeline) (r : RunReport) : Prop where
  /-- If a sink cannot be connected, those before it have been connected and are
  closed, and its error is returned. -/
  refused : ∀ before o behind text, p.outlets = before ++ o :: behind →
    (∀ b ∈ before, b.plan.connectFailure = none) → o.plan.connectFailure = some text →
      r.failure = some (.connect o.output.name text) ∧
        r.log = (before ++ [o]).flatMap (fun o => o.entries 0 [.connect]) ++
          before.flatMap fun o => o.entries 0 [.close]
  /-- Otherwise all are connected, then there are writes only, and at last every
  outlet is flushed and closed. No error is returned. -/
  served : (∀ o ∈ p.outlets, o.plan.connectFailure = none) →
    r.failure = none ∧ ∃ (during : List LogEntry) (ends : List (List LogEntry)),
      r.log = p.outlets.flatMap (fun o => o.entries 0 [.connect]) ++ during ++ ends.flatten ∧
        (∀ e ∈ during, e.IsWrite) ∧ List.Forall₂ Outlet.IsEnd p.outlets ends

namespace PipelineRun

theorem invariant_onward (wall : Timestamp) (first : PipelineRun) :
    Invariant wall (Onward first) where
  time _ _ h := h.trans (onward_of_eq rfl rfl)
  handle r due h := h.trans (onward_handle r wall due)
  stopSources _ h := h.trans (onward_of_eq rfl rfl)

theorem labels_start (p : Pipeline) : (start p).labels = p.outlets.map Outlet.label := by
  simp only [labels, start, List.map_map]
  exact List.map_congr_left fun o _ => o.label_await p.base

/-- Whatever the aggregators still push is written before the first close, or
with the last writes of an outlet. -/
theorem exists_ends (r : PipelineRun) : ∃ (during : List LogEntry) (ends : List (List LogEntry)),
    r.finish.log = r.log ++ during ++ ends.flatten ∧ (∀ e ∈ during, e.IsWrite) ∧
      List.Forall₂ Outlet.IsEnd r.pipeline.outlets ends := by
  let s := (r.onAggregators .stop).stopLoops
  have hstopped : Onward r s := (onward_onAggregators r .stop).trans (onward_stopLoops _)
  obtain ⟨during, hlog, hwrites⟩ := hstopped.log
  obtain ⟨-, ends, hends, hforall⟩ := exists_ends_finish s (Nat.le_refl _)
  rw [List.take_length] at hforall
  refine ⟨during, ends, ?_, hwrites, Outlet.forall₂_isEnd_congr hstopped.labels.symm hforall⟩
  rw [← hlog]
  exact hends

end PipelineRun

open PipelineRun in
theorem RunReport.lifecycle_run (p : Pipeline) (wall : Timestamp) (stop : Nat) (probes : List Nat) :
    (p.run wall stop probes).Lifecycle p where
  refused before o behind text houtlets hbefore ho := by
    have hconnect := connectAll_refused ho [] hbefore behind
    rw [← houtlets] at hconnect
    simp only [Pipeline.run, hconnect]
    exact ⟨trivial, rfl⟩
  served hall := by
    obtain ⟨r, honward, hfailure, hlog⟩ := (invariant_onward wall _).exists_last
      (connectAll_served [] hall) (.refl _) stop probes
    obtain ⟨between, hbetween, hwrites⟩ := honward.log
    obtain ⟨during, ends, hfinish, hwrites', hends⟩ := r.exists_ends
    refine ⟨hfailure, between ++ during, ends, ?_, fun e he => ?_, ?_⟩
    · rw [hlog, hfinish, hbetween]
      simp only [List.append_assoc]
    · exact (List.mem_append.1 he).elim (hwrites e) (hwrites' e)
    · refine Outlet.forall₂_isEnd_congr ?_ hends
      exact (labels_start p).symm.trans honward.labels.symm

/-- The sinks of a pipeline keep their lifecycle, in whatever order the tasks of
the pipeline take turns and whatever the sinks answer, and so they do in a run
that is scheduled in time. -/
theorem Pipeline.sink_lifecycle (p : Pipeline) :
    (∀ events, ((Service.start p).run events).Lifecycle p) ∧
      ∀ wall stop probes, (p.run wall stop probes).Lifecycle p :=
  ⟨Service.lifecycle_run p, RunReport.lifecycle_run p⟩

/-- Two sinks, of which the second one does not always answer well. -/
def Config.paired : Config :=
  { Config.empty with outputs := [.ofPlugin "discard", .ofPlugin "file"] }

/-- How a pipeline without sources ends, and what its sinks were asked to do. -/
def Pipeline.outcome (events : List ServiceEvent) : Option (ServicePhase × List (Nat × SinkCall)) :=
  (build .paired .builtin ⟨.empty, []⟩ .zero).toOption.map fun p =>
    let s := (Service.start p).run events
    (s.phase, s.calls)

example : Pipeline.outcome [.connect none, .connect (some "no such file"), .undo (some "gone")] =
    some (.returned (some (.connect "file" "no such file")),
      [(0, .connect none), (1, .connect (some "no such file")), (0, .close (some "gone"))]) := by
  decide +kernel

example : Pipeline.outcome [.connect none, .connect none, .shutdown, .proceed,
      .task (.fanOut .finish), .proceed, .endLoop 0, .endLoop 1, .proceed,
      .finish [] (some "gone"), .finish [] none] =
    some (.returned none, [(0, .connect none), (1, .connect none), (0, .close (some "gone")),
      (1, .close none)]) := by
  decide +kernel

end MetricAgent
