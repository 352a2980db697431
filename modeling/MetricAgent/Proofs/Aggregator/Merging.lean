import MetricAgent.Proofs.Aggregator.Lateness
import MetricAgent.Proofs.Metric.Grouping

/-!
# Merging the metrics of a window

An aggregator that merges hands every metric that it takes to a grouper, as its
filter leaves it, and gives the grouper up at every push. So a push gives out
the grouping of what was taken since the push before (`Running.Merges`), which
is said for the grouper by itself in `Grouper.groups_run`.
-/

namespace MetricAgent

namespace Filter

variable {m : Metric}

theorem canonical_trim (h : m.Canonical) (f : Filter) : (f.trim m).Canonical where
  tags_sorted := List.Pairwise.filter _ h.tags_sorted
  fields_distinct := Fields.distinct_filter h.fields_distinct _

theorem renameTag_eq (m : Metric) (change : String × String) :
    renameTag m change = { m with tags := (renameTag m change).tags } := by
  unfold renameTag
  split <;> rfl

theorem sorted_renameTag (h : SortedPairs.Sorted m.tags) (change : String × String) :
    SortedPairs.Sorted (renameTag m change).tags := by
  unfold renameTag
  split
  · next value _ => exact Tags.sorted_insert (Tags.sorted_erase h change.1) change.2 value
  · exact h

theorem canonical_renameTag (h : m.Canonical) (change : String × String) :
    (renameTag m change).Canonical := by
  rw [renameTag_eq]
  exact ⟨sorted_renameTag h.tags_sorted change, h.fields_distinct⟩

theorem canonical_modify (h : m.Canonical) (f : Filter) : (f.modify m).Canonical := by
  have hfold : ∀ (changes : List (String × String)) (n : Metric), n.Canonical →
      (changes.foldl renameTag n).Canonical := by
    intro changes
    induction changes with
    | nil => exact fun n hn => hn
    | cons change rest ih => exact fun n hn => ih _ (canonical_renameTag hn change)
  exact hfold f.tagRename _ (canonical_trim h f)

end Filter

namespace Running

variable {α : Type} {a : Running α} {m n : Metric}

theorem eq_modify_of_aggregated (h : a.offer m = .aggregated n) : n = a.filter.modify m := by
  unfold offer at h
  split at h
  · cases h
  · dsimp only at h
    split at h
    · cases h
    · split at h
      · cases h
      · cases h
        rfl

/-! ### Histories of one aggregator -/

inductive Call where
  | add (m : Metric)
  | push (now : Timestamp)

/-- What has been taken since the last push, after a call. A push that finds no
next window does not take place. -/
def takes (a : Running α) (taken : List Metric) : Call → List Metric
  | .add m =>
    match a.offer m with
    | .aggregated n => taken ++ [n]
    | _ => taken
  | .push now => if now.nanos < Timestamp.maxNanos then [] else taken

variable [Aggregating α]

def call (a : Running α) : Call → Running α
  | .add m => (a.add m).1
  | .push now => (AggregatorStage.push now a).1

def callAll (a : Running α) (calls : List Call) : Running α := calls.foldl call a

/-- What has been taken since the last push, after a history. -/
def takenAfter (a : Running α) (taken : List Metric) : List Call → List Metric
  | [] => taken
  | c :: calls => takenAfter (a.call c) (a.takes taken c) calls

/-- What a call leaves alone: how the aggregator treats its metrics. -/
theorem exists_call_eq (a : Running α) (c : Call) :
    ∃ g w stats telemetry, a.call c =
      { a with aggregator := g, window := w, stats := stats, telemetry := telemetry } := by
  cases c with
  | add m =>
      unfold call add
      dsimp only
      split <;> exact ⟨_, _, _, _, rfl⟩
  | push now =>
      unfold call AggregatorStage.push push?
      dsimp only
      cases a.window.next? now <;> exact ⟨_, _, _, _, rfl⟩

theorem exists_callAll_eq (a : Running α) (calls : List Call) :
    ∃ g w stats telemetry, a.callAll calls =
      { a with aggregator := g, window := w, stats := stats, telemetry := telemetry } := by
  induction calls generalizing a with
  | nil => exact ⟨_, _, _, _, rfl⟩
  | cons c calls ih =>
      obtain ⟨g, w, stats, telemetry, hcall⟩ := a.exists_call_eq c
      obtain ⟨g', w', stats', telemetry', hcalls⟩ := ih (a.call c)
      refine ⟨g', w', stats', telemetry', hcalls.trans ?_⟩
      rw [hcall]

theorem finish_callAll (a : Running α) (calls : List Call) :
    (a.callAll calls).finish = a.finish := by
  obtain ⟨g, w, stats, telemetry, hcalls⟩ := a.exists_callAll_eq calls
  rw [hcalls]
  rfl

theorem push?_of_lt {now : Timestamp} (h : now.nanos < Timestamp.maxNanos) :
    ∃ b, a.push? now = some (b, (Aggregating.emit a.aggregator now).1.map a.finish) ∧
      b.aggregator = (Aggregating.emit a.aggregator now).2 := by
  obtain ⟨w, hnext⟩ : ∃ w, a.window.next? now = some w :=
    ⟨_, Window.next?_eq_some_iff.2 ⟨h, rfl⟩⟩
  unfold push?
  rw [hnext]
  exact ⟨_, rfl, rfl⟩

theorem push?_of_not_lt {now : Timestamp} (h : ¬ now.nanos < Timestamp.maxNanos) :
    a.push? now = none := by
  unfold push?
  rw [Window.next?_eq_none h]
  rfl

end Running

namespace Running

variable {a : Running Aggregator} {taken : List Metric}

/-- An aggregator that merges, and what it has taken since its last push. -/
structure Merges (a : Running Aggregator) (taken : List Metric) : Prop where
  groups : ∃ g, a.aggregator = .merge g ∧ g.Groups taken
  canonical : ∀ n ∈ taken, n.Canonical

theorem Merges.add (h : a.Merges taken) {m : Metric} (hm : m.Canonical) :
    (a.add m).1.Merges (a.takes taken (.add m)) := by
  obtain ⟨g, hg, hgroups⟩ := h.groups
  simp only [takes]
  cases hoffer : a.offer m with
  | aggregated n =>
      have hn : n.Canonical := eq_modify_of_aggregated hoffer ▸ Filter.canonical_modify hm a.filter
      refine ⟨⟨g.addMetric n, ?_, hgroups.addMetric hn.fields_distinct⟩,
        Grouper.canonical_concat h.canonical hn⟩
      rw [(add_of_aggregated hoffer).1, hg]
      rfl
  | _ =>
      refine ⟨⟨g, ?_, hgroups⟩, h.canonical⟩
      unfold Running.add
      rw [hoffer]
      exact hg

theorem Merges.push (h : a.Merges taken) (now : Timestamp) :
    (AggregatorStage.push now a).1.Merges (a.takes taken (.push now)) := by
  simp only [takes, AggregatorStage.push]
  split
  · next hnow =>
    obtain ⟨b, hpush, hb⟩ := push?_of_lt (a := a) hnow
    obtain ⟨g, hg, hgroups⟩ := h.groups
    rw [hpush]
    refine ⟨⟨.empty, ?_, Grouper.groups_empty⟩, List.forall_mem_nil _⟩
    rw [hg] at hb
    exact hb
  · next hnow =>
    rw [push?_of_not_lt hnow]
    exact h

theorem Merges.callAll {calls : List Call} (h : a.Merges taken)
    (hcalls : ∀ m, .add m ∈ calls → m.Canonical) :
    (a.callAll calls).Merges (a.takenAfter taken calls) := by
  induction calls generalizing a taken with
  | nil => exact h
  | cons c calls ih =>
      refine ih ?_ fun m hm => hcalls m (List.mem_cons_of_mem _ hm)
      cases c with
      | add m => exact h.add (hcalls m List.mem_cons_self)
      | push now => exact h.push now

theorem merges_make {s : AggregatorSettings} {start : Timestamp}
    (h : make s (.merge .empty) start = .ok a) : a.Merges [] := by
  unfold make at h
  split at h
  · cases h
  · cases h
    exact ⟨⟨.empty, rfl, Grouper.groups_empty⟩, List.forall_mem_nil _⟩

end Running

namespace Grouper

/-- A grouper holds the grouping of what it has observed since its last reset,
one entry for each name, map of tags and timestamp. It makes no difference to
observe a metric of no kind value by value. And what an aggregator that merges
gives out at a push is the grouping of what it has taken since the last one. -/
theorem observations_grouped :
    (∀ actions : List Action, (∀ m, .addMetric m ∈ actions → m.Canonical) →
      (empty.run actions).entries = grouping (observed actions) ∧
        (empty.run actions).entries.Pairwise fun a b =>
          ¬ (a.name = b.name ∧ (∀ key, a.tag? key = b.tag? key) ∧ a.timestamp = b.timestamp)) ∧
    (∀ (g : Grouper) (m : Metric), m.WellFormed → m.kind = .untyped →
      m.fields.foldlM (fun g f => g.add m.name m.tags m.timestamp f.1 f.2) g =
        .ok (g.addMetric m)) ∧
    ∀ (s : AggregatorSettings) (start : Timestamp) (a : Running Aggregator),
      Running.make s (.merge .empty) start = .ok a →
      ∀ calls : List Running.Call, (∀ m, .add m ∈ calls → m.Canonical) →
      ∀ now : Timestamp, now.nanos < Timestamp.maxNanos →
        ∃ b, (a.callAll calls).push? now =
          some (b, (grouping (a.takenAfter [] calls)).map a.finish) := by
  refine ⟨fun actions hactions => ?_, fun g m hm hkind => foldlM_add_eq hm hkind g,
    fun s start a hmake calls hcalls now hnow => ?_⟩
  · obtain ⟨hgroups, hcanonical⟩ := groups_run groups_empty (List.forall_mem_nil _) hactions
    have hentries : (empty.run actions).entries = grouping (observed actions) := hgroups.entries
    exact ⟨hentries, hentries ▸ pairwise_grouping hcanonical⟩
  · obtain ⟨g, hg, hgroups⟩ := ((Running.merges_make hmake).callAll hcalls).groups
    obtain ⟨b, hpush, -⟩ := Running.push?_of_lt (a := a.callAll calls) hnow
    refine ⟨b, hpush.trans ?_⟩
    rw [hg, a.finish_callAll calls, ← hgroups.entries]
    rfl

def load (s : Int) (fields : Fields) (kind : MetricKind) : Metric :=
  ⟨"load", [("host", "a"), ("zone", "b")], fields, .ofSeconds s, kind⟩

theorem observations_grouped_merged :
    (empty.run [.addMetric (load 1 [("user", .int 9)] .gauge), .reset,
        .add "load" [("zone", "b"), ("host", "a")] (.ofSeconds 1) "user" (.int 1),
        .add "" [] (.ofSeconds 1) "user" (.int 2),
        .addMetric (load 1 [("idle", .int 3), ("user", .int 4)] .gauge)]).entries =
      [load 1 [("user", .int 4), ("idle", .int 3)] .untyped] ∧
    [("idle", FieldValue.int 3), ("user", .int 4)].foldlM
        (fun g f => g.add "load" [("host", "a"), ("zone", "b")] (.ofSeconds 1) f.1 f.2) empty =
      .ok (empty.addMetric (load 1 [("idle", .int 3), ("user", .int 4)] .untyped)) ∧
    ∃ a, Running.make Running.patient (Aggregator.merge .empty) (.ofSeconds 60) = .ok a ∧
      ∃ b, (a.callAll [.add (load 61 [("user", .int 1)] .gauge), .push (.ofSeconds 150),
          .add (load 95 [("user", .int 2)] .gauge), .add (load 10 [("user", .int 3)] .gauge),
          .add (load 95 [("idle", .int 4)] .counter)]).push? (.ofSeconds 180) =
        some (b, [load 95 [("user", .int 2), ("idle", .int 4)] .gauge]) := by
  have hload : ∀ s fields kind, Fields.Distinct fields → (load s fields kind).Canonical := by
    intro s fields kind h
    have htags : SortedPairs.Sorted [("host", "a"), ("zone", "b")] := by decide
    exact ⟨htags, h⟩
  obtain ⟨hgrouped, hvalues, hpushed⟩ := observations_grouped
  refine ⟨?_, ?_, _, rfl, ?_⟩
  · refine (hgrouped _ ?_).1.trans (by decide +kernel)
    intro m hm
    simp only [List.mem_cons, Action.addMetric.injEq, reduceCtorEq, List.not_mem_nil, false_or,
      or_false] at hm
    rcases hm with rfl | rfl
    · exact hload _ _ _ (by decide)
    · exact hload _ _ _ (by decide)
  · exact hvalues empty (load 1 [("idle", .int 3), ("user", .int 4)] .untyped)
      ⟨by decide, by decide, by decide, by decide⟩ rfl
  · have hmake : Running.make Running.patient (Aggregator.merge .empty) (.ofSeconds 60) = .ok _ :=
      rfl
    have hcalls : ∀ m, Running.Call.add m ∈ [Running.Call.add (load 61 [("user", .int 1)] .gauge),
        .push (.ofSeconds 150), .add (load 95 [("user", .int 2)] .gauge),
        .add (load 10 [("user", .int 3)] .gauge), .add (load 95 [("idle", .int 4)] .counter)] →
        m.Canonical := by
      intro m hm
      simp only [List.mem_cons, Running.Call.add.injEq, reduceCtorEq, List.not_mem_nil, false_or,
        or_false] at hm
      rcases hm with rfl | rfl | rfl | rfl
      all_goals exact hload _ _ _ (by decide)
    obtain ⟨b, hb⟩ := hpushed _ _ _ hmake _ hcalls (.ofSeconds 180) (by decide +kernel)
    refine ⟨b, hb.trans (congrArg (fun out => some (b, out)) ?_)⟩
    decide +kernel

end Grouper
end MetricAgent
