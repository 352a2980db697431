import MetricAgent.Proofs.Aggregator.Collisions
import MetricAgent.Proofs.Metric.Grouping
import Mathlib.Data.List.DropRight

/-!
# The kinds of what is given out

A merged metric has the kind of the first of those that it is made of. What ends a
series is made from the name, the tags and the fields of its last metric, so it has no
kind, whatever that metric had. It is that metric but for the keys of the fields
exactly if the metric had no kind either (`Aggregator.kinds_given_out`).
-/

namespace MetricAgent

/-- A metric with each field marked in its key, and otherwise as it is. -/
def Metric.markFinal (m : Metric) : Metric :=
  { m with fields := m.fields.map fun f => (f.1 ++ "_final", f.2) }

/-- What observations come to has the kind of the first one. -/
theorem Grouper.kind_of_mem_grouping {seen : List Metric} {out : Metric}
    (h : out ∈ grouping seen) :
    ∃ m, seen.find? (fun m => m.identity = out.identity) = some m ∧ out.kind = m.kind := by
  obtain ⟨id, hid, rfl⟩ := List.mem_map.1 h
  obtain ⟨n, hn, hsame⟩ := mem_identities.1 hid
  have hfound : (seen.find? fun m => m.identity = id).isSome = true :=
    List.find?_isSome.2 ⟨n, hn, decide_eq_true hsame⟩
  obtain ⟨m, hm⟩ := Option.isSome_iff_exists.1 hfound
  refine ⟨m, hm, ?_⟩
  unfold entry
  rw [List.head?_filter, hm]
  rfl

namespace Aggregator

def Call.metric? : Call → Option Metric
  | .observe m => some m
  | .push _ => none
  | .reset => none

/-- Whether a call is a reset, as it follows each push. -/
def Call.isReset : Call → Bool
  | .reset => true
  | _ => false

def sinceReset (calls : List Call) : List Metric :=
  (calls.rtakeWhile fun c => !c.isReset).filterMap Call.metric?

def lastOf (s : Series) (calls : List Call) : Option Metric :=
  ((calls.filterMap Call.metric?).filter fun m => Series.of m = s).getLast?

variable {timeout : Duration} {calls : List Call} {l : LastMetrics} {m out : Metric}

/-! ### What comes together -/

theorem sinceReset_concat (calls : List Call) (c : Call) :
    sinceReset (calls ++ [c]) =
      if c.isReset then [] else sinceReset calls ++ c.metric?.toList := by
  unfold sinceReset
  rw [List.rtakeWhile_concat]
  cases hreset : c.isReset with
  | true => rfl
  | false => exact filterMap_concat _ _ _

/-- A merging aggregator has grouped what has come since the last reset. -/
theorem exists_groups_sinceReset (hcalls : ∀ m, .observe m ∈ calls → m.WellFormed) :
    ∃ g, callAll (.merge .empty) calls = .merge g ∧ g.Groups (sinceReset calls) := by
  induction calls using List.reverseRecOn with
  | nil => exact ⟨.empty, rfl, Grouper.groups_empty⟩
  | append_singleton calls c ih =>
      obtain ⟨g, hg, hgroups⟩ := ih fun m hm => hcalls m (List.mem_append_left _ hm)
      rw [callAll_append, hg, sinceReset_concat]
      cases c with
      | observe m =>
          have hm := hcalls m (List.mem_append_right _ List.mem_cons_self)
          exact ⟨_, rfl, hgroups.addMetric hm.fields_distinct⟩
      | push now => exact ⟨g, rfl, (List.append_nil (sinceReset calls)).symm ▸ hgroups⟩
      | reset => exact ⟨.empty, rfl, Grouper.groups_empty⟩

/-! ### What ends a series -/

theorem lastOf_concat_observe (s : Series) (calls : List Call) (n : Metric) :
    lastOf s (calls ++ [.observe n]) = if Series.of n = s then some n else lastOf s calls := by
  have hmetrics : (calls ++ [Call.observe n]).filterMap Call.metric? =
      calls.filterMap Call.metric? ++ [n] := filterMap_concat _ calls _
  unfold lastOf
  rw [hmetrics, List.filter_append, List.filter_singleton]
  by_cases hseries : Series.of n = s
  · rw [if_pos hseries, decide_eq_true hseries]
    exact List.getLast?_concat
  · rw [if_neg hseries, decide_eq_false hseries]
    exact congrArg List.getLast? (List.append_nil _)

theorem lastOf_concat_of_metric?_eq_none {c : Call} (h : c.metric? = none) (s : Series)
    (calls : List Call) : lastOf s (calls ++ [c]) = lastOf s calls := by
  have hmetrics : (calls ++ [c]).filterMap Call.metric? = calls.filterMap Call.metric? := by
    rw [filterMap_concat, h]
    exact List.append_nil _
  unfold lastOf
  rw [hmetrics]

/-- What waits under a key is the last metric of its own series. -/
theorem lastOf_of_last? (h : last? Metric.seriesKey timeout m.seriesKey calls = some m) :
    lastOf (Series.of m) calls = some m := by
  induction calls using List.reverseRecOn with
  | nil => cases h
  | append_singleton calls c ih =>
      cases c with
      | observe n =>
          rw [last?_concat_observe] at h
          rw [lastOf_concat_observe]
          by_cases hkey : n.seriesKey = m.seriesKey
          · rw [if_pos hkey] at h
            rw [Option.some.inj h, if_pos rfl]
          · rw [if_neg hkey] at h
            have hne : Series.of n ≠ Series.of m := fun hsame => hkey (by
              rw [← Series.key_of, ← Series.key_of, hsame])
            rw [if_neg hne]
            exact ih h
      | push now =>
          rw [last?_concat_push, Option.filter_eq_some_iff] at h
          rw [lastOf_concat_of_metric?_eq_none rfl]
          exact ih h.1
      | reset =>
          unfold last? at h
          rw [unsent_concat_reset] at h
          rw [lastOf_concat_of_metric?_eq_none rfl]
          exact ih h

theorem Keeps.eq_of_mem_pushed (h : Keeps timeout calls l)
    (hcalls : ∀ m, .observe m ∈ calls → m.WellFormed) {now : Timestamp}
    (hout : out ∈ ((final timeout l).pushed now).1) :
    ∃ m, lastOf (Series.of out) calls = some m ∧
      out = { m.markFinal with kind := .untyped } := by
  have hpushed : ((final timeout l).pushed now).1 = (l.push timeout now).1 := rfl
  rw [hpushed, LastMetrics.push_fst] at hout
  obtain ⟨m, hm, hfinished⟩ := List.mem_filterMap.1 hout
  obtain ⟨e, he, rfl⟩ := List.mem_map.1 hm
  have hlast := h.recalls.last?_eq (List.mem_of_mem_filter (List.mem_mergeSort.1 he))
  have hwellFormed := hcalls _ (observed_of_last? hlast).1
  rw [LastMetrics.finished?_eq hwellFormed] at hfinished
  obtain rfl := Option.some.inj hfinished
  exact ⟨e.metric, lastOf_of_last? hlast, rfl⟩

/-- A push of a merging aggregator gives out metrics of the kind of the first of those
that they are made of. What ends a series is its last metric with the keys of the fields
marked and without its kind, so nothing else changes exactly if that has no kind. -/
theorem kinds_given_out (timeout : Duration) (calls : List Call)
    (hcalls : ∀ m, .observe m ∈ calls → m.WellFormed) (now : Timestamp) :
    (∀ out ∈ ((callAll (.merge .empty) calls).pushed now).1,
      ∃ m, (sinceReset calls).find? (fun m => m.identity = out.identity) = some m ∧
        out.kind = m.kind) ∧
    ∀ out ∈ ((callAll (.final timeout .empty) calls).pushed now).1,
      ∃ m, lastOf (Series.of out) calls = some m ∧
        out = { m.markFinal with kind := .untyped } ∧
        (out = m.markFinal ↔ m.kind = .untyped) := by
  refine ⟨fun out hout => ?_, fun out hout => ?_⟩
  · obtain ⟨g, hg, hgroups⟩ := exists_groups_sinceReset hcalls
    rw [hg] at hout
    exact Grouper.kind_of_mem_grouping (hgroups.entries ▸ hout)
  · obtain ⟨l, hl, hkeeps⟩ := keeps_callAll timeout calls
    rw [hl] at hout
    obtain ⟨m, hlast, rfl⟩ := hkeeps.eq_of_mem_pushed hcalls hout
    refine ⟨m, hlast, rfl, fun hsame => ?_, fun hkind => ?_⟩
    · exact (congrArg Metric.kind hsame).symm
    · rw [← hkind]
      rfl

def loadOf (kind : MetricKind) (value : Int64) : Metric :=
  ⟨"cpu", [], [("v", .int value)], .ofSeconds 5, kind⟩

theorem wellFormed_loadOf (kind : MetricKind) (value : Int64) : (loadOf kind value).WellFormed where
  name_ne := (by decide : "cpu" ≠ "")
  fields_ne := List.cons_ne_nil _ _
  tags_sorted := SortedPairs.sorted_nil
  fields_distinct := List.nodup_singleton _

theorem kinds_given_out_mixed :
    let calls := [.observe (loadOf .gauge 1), .observe (loadOf .untyped 2)]
    let ended : Metric := ⟨"cpu", [], [("v_final", .int 2)], .ofSeconds 5, .untyped⟩
    (∃ m, (sinceReset calls).find? (fun m => m.identity = (loadOf .gauge 2).identity) = some m ∧
      (loadOf .gauge 2).kind = m.kind) ∧
    ∃ m, lastOf (Series.of ended) calls = some m ∧ ended = { m.markFinal with kind := .untyped } ∧
      (ended = m.markFinal ↔ m.kind = .untyped) := by
  intro calls ended
  have hcalls : ∀ m, .observe m ∈ calls → m.WellFormed := by
    intro m hm
    simp only [calls, List.mem_cons, Call.observe.injEq, List.not_mem_nil, or_false] at hm
    rcases hm with rfl | rfl
    all_goals exact wellFormed_loadOf _ _
  obtain ⟨hmerge, hfinal⟩ := kinds_given_out (.ofSeconds 1) calls hcalls (.ofSeconds 1000)
  exact ⟨hmerge _ (by decide +kernel), hfinal _ (by decide +kernel)⟩

/-- A gauge that ends its series is no gauge any more, so that more has changed of it
than the key of its field. -/
theorem gauge_ends_untyped :
    let calls := [.observe (loadOf .gauge 1)]
    let ended : Metric := ⟨"cpu", [], [("v_final", .int 1)], .ofSeconds 5, .untyped⟩
    (∀ m, .observe m ∈ calls → m.WellFormed) ∧
      ((callAll (.final (.ofSeconds 1) .empty) calls).pushed (.ofSeconds 1000)).1 = [ended] ∧
      lastOf (Series.of ended) calls = some (loadOf .gauge 1) ∧
      ended.kind ≠ (loadOf .gauge 1).kind ∧ ended ≠ (loadOf .gauge 1).markFinal := by
  intro calls ended
  refine ⟨fun m hm => ?_, by decide +kernel, by decide +kernel, by decide, by decide +kernel⟩
  obtain rfl := Call.observe.inj (List.mem_singleton.1 hm)
  exact wellFormed_loadOf _ _

end Aggregator

end MetricAgent
