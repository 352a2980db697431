import MetricAgent.Proofs.Aggregator.Unsent
import MetricAgent.Proofs.Metric.Fields
import MetricAgent.Proofs.Metric.Tags

/-!
# Series that have fallen silent

A memory of last metrics is right (`Recalls`) if it holds the last unsent metric
of each series, and if its places are in the order in which the series came.
What a push gives out follows from that alone (`Recalls.emits`), so the order of
the memory itself has no part in it. With keys for series, every call keeps the
memory right (`Keeps`).
-/

namespace MetricAgent

namespace LastMetrics

variable {l : LastMetrics} {key k : UInt64} {m : Metric} {timeout : Duration} {now : Timestamp}

theorem isExpired_eq_decide (m : Metric) :
    isExpired timeout now m = decide (m.Silent timeout now) := by
  have hspan : (now.since m.timestamp).nanos =
      (Timestamp.saturate (now.nanos - m.timestamp.nanos)).nanos.toNat := by
    have hmax := (Timestamp.saturate (now.nanos - m.timestamp.nanos)).le_max
    unfold Timestamp.since Duration.ofNanos
    rw [dif_pos (by simp only [UInt64.size]; omega)]
  refine decide_eq_decide.2 ?_
  change timeout.nanos < (now.since m.timestamp).nanos ↔ _
  rw [hspan, Timestamp.nanos_saturate]
  unfold Metric.Silent Timestamp.maxNanos
  omega

/-- What is given out for a well-formed metric. -/
theorem finished?_eq {m : Metric} (h : m.WellFormed) :
    finished? m = some { m with
      fields := m.fields.map fun f => (f.1 ++ "_final", f.2)
      kind := .untyped } := by
  have hfields : Fields.ofList (m.fields.map fun f => (f.1 ++ "_final", f.2)) =
      m.fields.map fun f => (f.1 ++ "_final", f.2) :=
    Fields.insertAll_of_distinct
      (Fields.distinct_map_keys h.fields_distinct fun _ _ => (String.append_left_inj _).1)
  have htags : Tags.insertAll m.tags [] = m.tags := Tags.insertAll_of_sorted h.tags_sorted
  unfold finished? Metric.make
  rw [if_neg h.name_ne, hfields]
  simp [h.fields_ne, Metric.addTags, htags]

/-- Every metric of a series can end it. -/
theorem exists_ends {m : Metric} (h : m.WellFormed) :
    ∃ out, finished? m = some out ∧ m.Ends out :=
  ⟨_, finished?_eq h, rfl, rfl, rfl, rfl⟩

/-! ### What a push reads -/

theorem inOrder_eq {latest sorted : List Latest} (hperm : latest.Perm sorted)
    (h : sorted.Pairwise fun a b => a.place < b.place) :
    inOrder latest = sorted.map Latest.metric := by
  unfold inOrder
  rw [mergeSort_key_eq hperm h]

theorem push_fst (timeout : Duration) (now : Timestamp) (l : LastMetrics) :
    (l.push timeout now).1 = (inOrder ((l.memory.map Prod.snd).filter fun e =>
      isExpired timeout now e.metric)).filterMap finished? := by
  unfold push
  rw [List.filter_map]
  rfl

theorem push_fst_of_perm {sorted : List Latest}
    (hperm : ((l.memory.map Prod.snd).filter fun e => isExpired timeout now e.metric).Perm sorted)
    (h : sorted.Pairwise fun a b => a.place < b.place) :
    (l.push timeout now).1 = (sorted.map Latest.metric).filterMap finished? := by
  rw [push_fst, inOrder_eq hperm h]

theorem lookup_push (h : (l.memory.map Prod.fst).Nodup) (timeout : Duration) (now : Timestamp)
    (k : UInt64) : (l.push timeout now).2.memory.lookup k =
      (l.memory.lookup k).filter fun e => ¬ e.metric.Silent timeout now := by
  refine (lookup_filter h _ k).trans (congrArg (Option.filter · _) (funext fun e => ?_))
  rw [isExpired_eq_decide, decide_not]

/-! ### What an observation writes -/

theorem remember_of_lookup {d : Latest} (h : l.memory.lookup key = some d) (m : Metric) :
    l.remember key m = { l with memory := l.memory.map fun e =>
      (e.1, if e.1 = key then { e.2 with metric := m } else e.2) } := by
  have hmap : (l.memory.map fun e => if e.1 = key then (key, { e.2 with metric := m }) else e) =
      l.memory.map fun e => (e.1, if e.1 = key then { e.2 with metric := m } else e.2) := by
    refine List.map_congr_left fun e _ => ?_
    split
    · next hkey => rw [hkey]
    · rfl
  unfold remember
  rw [h, Option.isSome_some, if_pos rfl, hmap]

theorem remember_of_lookup_eq_none (h : l.memory.lookup key = none) (m : Metric) :
    l.remember key m = ⟨(key, ⟨l.next, m⟩) :: l.memory, l.next + 1⟩ := by
  unfold remember
  rw [h, Option.isSome_none, if_neg Bool.false_ne_true]

theorem lookup_remember (l : LastMetrics) (key : UInt64) (m : Metric) (k : UInt64) :
    (l.remember key m).memory.lookup k =
      if k = key then some ⟨((l.memory.lookup key).map Latest.place).getD l.next, m⟩
      else l.memory.lookup k := by
  cases hlookup : l.memory.lookup key with
  | some d =>
      rw [remember_of_lookup hlookup]
      refine (lookup_map_val (fun i e => if i = key then { e with metric := m } else e)
        l.memory k).trans ?_
      by_cases hk : k = key
      · subst hk
        rw [hlookup, if_pos rfl, Option.map_some, if_pos rfl]
        rfl
      · simp [hk]
  | none =>
      rw [remember_of_lookup_eq_none hlookup, lookup_cons_ite]
      rfl

theorem nodup_keys_remember (h : (l.memory.map Prod.fst).Nodup) (key : UInt64) (m : Metric) :
    ((l.remember key m).memory.map Prod.fst).Nodup := by
  cases hlookup : l.memory.lookup key with
  | some d =>
      rw [remember_of_lookup hlookup, List.map_map]
      exact h
  | none =>
      rw [remember_of_lookup_eq_none hlookup, List.map_cons]
      refine List.nodup_cons.2 ⟨fun hmem => ?_, h⟩
      obtain ⟨e, he, rfl⟩ := List.mem_map.1 hmem
      rw [(mem_iff_lookup h).1 he] at hlookup
      cases hlookup

/-- A series that comes again stays where it is, and a new one comes last. -/
theorem place_of_lookup_remember {e : Latest}
    (h : (l.remember key m).memory.lookup k = some e) :
    (∃ d, l.memory.lookup k = some d ∧ e.place = d.place) ∨
      (k = key ∧ l.memory.lookup key = none ∧ e.place = l.next) := by
  rw [lookup_remember] at h
  split at h
  · next hk =>
    subst hk
    cases h
    cases hfound : l.memory.lookup k with
    | some d => exact .inl ⟨d, rfl, rfl⟩
    | none => exact .inr ⟨rfl, rfl, rfl⟩
  · exact .inl ⟨e, h, rfl⟩

theorem next_le_next_remember (l : LastMetrics) (key : UInt64) (m : Metric) :
    l.next ≤ (l.remember key m).next := by
  cases hlookup : l.memory.lookup key with
  | some d =>
      exact Nat.le_of_eq (by rw [remember_of_lookup hlookup])
  | none =>
      rw [remember_of_lookup_eq_none hlookup]
      exact Nat.le_succ _

end LastMetrics

namespace Aggregator

section Recalls

variable {ι : Type} [DecidableEq ι] {ident : Metric → ι} {timeout : Duration} {calls : List Call}
  {latest : List Latest} {l : LastMetrics}

variable (ident timeout) in
/-- A memory that holds the last unsent metric of each series, with places in
the order in which the series came. -/
structure Recalls (calls : List Call) (latest : List Latest) : Prop where
  nodup : (latest.map fun e => ident e.metric).Nodup
  last : ∀ m, (∃ e ∈ latest, e.metric = m) ↔ last? ident timeout (ident m) calls = some m
  order : ∀ e ∈ latest, ∀ f ∈ latest, e.place < f.place ↔
    start ident timeout (ident e.metric) calls < start ident timeout (ident f.metric) calls

theorem Recalls.last?_eq (h : Recalls ident timeout calls latest) {e : Latest} (he : e ∈ latest) :
    last? ident timeout (ident e.metric) calls = some e.metric :=
  (h.last e.metric).1 ⟨e, he, rfl⟩

theorem Recalls.eq_of_place_eq (h : Recalls ident timeout calls latest) {e f : Latest}
    (he : e ∈ latest) (hf : f ∈ latest) (hplace : e.place = f.place) : e = f := by
  have hlt := h.order e he f hf
  have hgt := h.order f hf e he
  have hstart : start ident timeout (ident e.metric) calls =
      start ident timeout (ident f.metric) calls := by omega
  have hident : ident e.metric = ident f.metric :=
    eq_of_start_eq (unsent_ne_nil (h.last?_eq he)) (unsent_ne_nil (h.last?_eq hf)) hstart
  exact List.inj_on_of_nodup_map h.nodup he hf hident

theorem Recalls.exists_sorted (h : Recalls ident timeout calls latest) (p : Latest → Bool) :
    ∃ sorted, (latest.filter p).Perm sorted ∧
      sorted.Pairwise fun a b => a.place < b.place := by
  let sorted := (latest.filter p).mergeSort fun a b => a.place ≤ b.place
  have hperm : sorted.Perm (latest.filter p) := List.mergeSort_perm _ _
  have hmem : ∀ {e}, e ∈ sorted → e ∈ latest := fun he =>
    List.mem_of_mem_filter (hperm.mem_iff.1 he)
  have hnodup : sorted.Nodup := hperm.nodup_iff.2 (h.nodup.of_map.filter p)
  refine ⟨sorted, hperm.symm, ((pairwise_mergeSort_key Latest.place _).and hnodup).imp_of_mem
    fun he hf hef => ?_⟩
  exact Nat.lt_of_le_of_ne hef.1 fun heq => hef.2 (h.eq_of_place_eq (hmem he) (hmem hf) heq)

/-- A push gives out what is due, as far as the memory is right. -/
theorem Recalls.emits (h : Recalls ident timeout calls (l.memory.map Prod.snd))
    (hcalls : ∀ m, .observe m ∈ calls → m.WellFormed) (now : Timestamp) :
    Emits ident timeout calls now ((final timeout l).pushed now).1 := by
  obtain ⟨due, hperm, hplaces⟩ :=
    h.exists_sorted fun e => LastMetrics.isExpired timeout now e.metric
  have hmem : ∀ {e}, e ∈ due ↔ e ∈ l.memory.map Prod.snd ∧ e.metric.Silent timeout now := by
    intro e
    rw [← hperm.mem_iff, List.mem_filter, LastMetrics.isExpired_eq_decide, decide_eq_true_iff]
  have hout : ((final timeout l).pushed now).1 =
      (due.map Latest.metric).filterMap LastMetrics.finished? :=
    LastMetrics.push_fst_of_perm hperm hplaces
  refine ⟨due.map fun e => ident e.metric, fun i => ?_, ?_, ?_⟩
  · rw [List.mem_map]
    constructor
    · rintro ⟨e, he, rfl⟩
      exact ⟨e.metric, h.last?_eq (hmem.1 he).1, (hmem.1 he).2⟩
    · rintro ⟨m, hlast, hsilent⟩
      obtain rfl : ident m = i := (observed_of_last? hlast).2
      obtain ⟨e, he, rfl⟩ := (h.last m).2 hlast
      exact ⟨e, hmem.2 ⟨he, hsilent⟩, rfl⟩
  · rw [List.pairwise_map]
    refine hplaces.imp_of_mem fun {e f} he hf hlt => ?_
    exact (h.order e (hmem.1 he).1 f (hmem.1 hf).1).1 hlt
  · rw [hout, List.filterMap_map, List.forall₂_map_left_iff]
    refine forall₂_filterMap fun e he => ?_
    have hlast := h.last?_eq (hmem.1 he).1
    obtain ⟨out, hfrom, hends⟩ := LastMetrics.exists_ends (hcalls _ (observed_of_last? hlast).1)
    exact ⟨out, hfrom, e.metric, hlast, hends⟩

/-- Whatever the order of the memory is, its metrics come out in one order. -/
theorem Recalls.pushed_eq_of_perm (h : Recalls ident timeout calls (l.memory.map Prod.snd))
    {scan : List (UInt64 × Latest)} (hscan : scan.Perm l.memory) (now : Timestamp) :
    ((final timeout ⟨scan, l.next⟩).pushed now).1 = ((final timeout l).pushed now).1 := by
  obtain ⟨due, hperm, hplaces⟩ :=
    h.exists_sorted fun e => LastMetrics.isExpired timeout now e.metric
  have hscanned := ((hscan.map Prod.snd).filter _).trans hperm
  exact (LastMetrics.push_fst_of_perm hscanned hplaces).trans
    (LastMetrics.push_fst_of_perm hperm hplaces).symm

end Recalls

variable {timeout : Duration} {calls : List Call} {l : LastMetrics} {i j : UInt64}

/-- An aggregator that has kept the history of its calls, under keys. -/
structure Keeps (timeout : Duration) (calls : List Call) (l : LastMetrics) : Prop where
  nodup : (l.memory.map Prod.fst).Nodup
  last : ∀ i, (l.memory.lookup i).map Latest.metric = last? Metric.seriesKey timeout i calls
  place_lt : ∀ i e, l.memory.lookup i = some e → e.place < l.next
  order : ∀ i j e f, l.memory.lookup i = some e → l.memory.lookup j = some f →
    (e.place < f.place ↔
      start Metric.seriesKey timeout i calls < start Metric.seriesKey timeout j calls)

theorem keeps_empty : Keeps timeout [] .empty where
  nodup := List.nodup_nil
  last _ := rfl
  place_lt _ e he := by cases (he : none = some e)
  order _ _ e _ he := by cases (he : none = some e)

theorem Keeps.last?_eq (h : Keeps timeout calls l) {e : Latest}
    (he : l.memory.lookup i = some e) :
    last? Metric.seriesKey timeout i calls = some e.metric := by
  rw [← h.last, he, Option.map_some]

theorem Keeps.last?_eq_none (h : Keeps timeout calls l) (hi : l.memory.lookup i = none) :
    last? Metric.seriesKey timeout i calls = none := by
  rw [← h.last, hi, Option.map_none]

theorem Keeps.remember (h : Keeps timeout calls l) (m : Metric) :
    Keeps timeout (calls ++ [.observe m]) (l.remember m.seriesKey m) := by
  have hold : ∀ {i e}, l.memory.lookup i = some e →
      start Metric.seriesKey timeout i calls < calls.length ∧
        start Metric.seriesKey timeout i (calls ++ [.observe m]) =
          start Metric.seriesKey timeout i calls := by
    intro i e he
    have hunsent := unsent_ne_nil (h.last?_eq he)
    exact ⟨start_lt_length hunsent, start_concat_observe hunsent m⟩
  have hnew : l.memory.lookup m.seriesKey = none →
      start Metric.seriesKey timeout m.seriesKey (calls ++ [.observe m]) = calls.length :=
    fun hnone => start_concat_observe_self m (last?_eq_none_iff.1 (h.last?_eq_none hnone))
  refine ⟨LastMetrics.nodup_keys_remember h.nodup _ m, fun i => ?_, fun i e he => ?_,
    fun i j e f he hf => ?_⟩
  · rw [LastMetrics.lookup_remember, last?_concat_observe, ← h.last]
    by_cases hi : i = m.seriesKey
    · rw [if_pos hi, if_pos hi.symm, Option.map_some]
    · rw [if_neg hi, if_neg (Ne.symm hi)]
  · rcases LastMetrics.place_of_lookup_remember he with ⟨d, hd, hed⟩ | ⟨-, hnone, hed⟩
    · rw [hed]
      exact Nat.lt_of_lt_of_le (h.place_lt i d hd) (l.next_le_next_remember _ m)
    · rw [hed, LastMetrics.remember_of_lookup_eq_none hnone]
      exact Nat.lt_succ_self _
  · -- A series that is new has the last place of all, and the last start.
    rcases LastMetrics.place_of_lookup_remember he with ⟨d, hd, hed⟩ | ⟨rfl, hnone, hed⟩ <;>
      rcases LastMetrics.place_of_lookup_remember hf with ⟨c, hc, hfc⟩ | ⟨rfl, hnone', hfc⟩
    · rw [hed, hfc, (hold hd).2, (hold hc).2]
      exact h.order i j d c hd hc
    · rw [hed, hfc, (hold hd).2, hnew hnone']
      exact iff_of_true (h.place_lt i d hd) (hold hd).1
    · rw [hed, hfc, (hold hc).2, hnew hnone]
      exact iff_of_false (Nat.lt_asymm (h.place_lt j c hc)) (Nat.lt_asymm (hold hc).1)
    · rw [hed, hfc]
      exact iff_of_false (Nat.lt_irrefl _) (Nat.lt_irrefl _)

theorem Keeps.push (h : Keeps timeout calls l) (now : Timestamp) :
    Keeps timeout (calls ++ [.push now]) (l.push timeout now).2 := by
  have hkept : ∀ {i e}, (l.push timeout now).2.memory.lookup i = some e →
      l.memory.lookup i = some e ∧
        start Metric.seriesKey timeout i (calls ++ [.push now]) =
          start Metric.seriesKey timeout i calls := by
    intro i e he
    rw [LastMetrics.lookup_push h.nodup, Option.filter_eq_some_iff] at he
    obtain ⟨hfound, hawake⟩ := he
    refine ⟨hfound, ?_⟩
    unfold start
    rw [unsent_concat_push_of_not_due]
    rintro ⟨m, hlast, hsilent⟩
    rw [h.last?_eq hfound] at hlast
    cases hlast
    exact of_decide_eq_true hawake hsilent
  refine ⟨(List.filter_sublist.map _).nodup h.nodup, fun i => ?_, fun i e he => ?_,
    fun i j e f he hf => ?_⟩
  · rw [LastMetrics.lookup_push h.nodup, last?_concat_push, ← h.last, Option.filter_map]
    rfl
  · exact h.place_lt i e (hkept he).1
  · rw [(hkept he).2, (hkept hf).2]
    exact h.order i j e f (hkept he).1 (hkept hf).1

theorem Keeps.reset (h : Keeps timeout calls l) : Keeps timeout (calls ++ [.reset]) l := by
  have hlast : ∀ i, last? Metric.seriesKey timeout i (calls ++ [.reset]) =
      last? Metric.seriesKey timeout i calls := fun i => by
    unfold last?
    rw [unsent_concat_reset]
  have hstart : ∀ i, start Metric.seriesKey timeout i (calls ++ [.reset]) =
      start Metric.seriesKey timeout i calls := fun i => by
    unfold start
    rw [unsent_concat_reset]
  exact ⟨h.nodup, fun i => (h.last i).trans (hlast i).symm, h.place_lt,
    fun i j e f he hf => by rw [hstart, hstart]; exact h.order i j e f he hf⟩

/-- Whatever is called, the history is kept. -/
theorem keeps_callAll (timeout : Duration) (calls : List Call) :
    ∃ l, callAll (.final timeout .empty) calls = .final timeout l ∧ Keeps timeout calls l := by
  induction calls using List.reverseRecOn with
  | nil => exact ⟨.empty, rfl, keeps_empty⟩
  | append_singleton calls c ih =>
      obtain ⟨l, hl, hkeeps⟩ := ih
      rw [callAll_append, hl]
      cases c with
      | observe m => exact ⟨_, rfl, hkeeps.remember m⟩
      | push now => exact ⟨_, rfl, hkeeps.push now⟩
      | reset => exact ⟨_, rfl, hkeeps.reset⟩

/-- Under keys, the memory holds the series that have a key. -/
theorem Keeps.recalls (h : Keeps timeout calls l) :
    Recalls Metric.seriesKey timeout calls (l.memory.map Prod.snd) := by
  have hfound : ∀ e ∈ l.memory, l.memory.lookup e.1 = some e.2 := fun e he =>
    (mem_iff_lookup h.nodup).1 he
  have hkey : ∀ e ∈ l.memory, e.2.metric.seriesKey = e.1 := fun e he =>
    (observed_of_last? (h.last?_eq (hfound e he))).2
  refine ⟨?_, fun m => ?_, ?_⟩
  · rw [List.map_map]
    refine (List.map_congr_left fun e he => ?_) ▸ h.nodup
    exact (hkey e he).symm
  · rw [← h.last]
    constructor
    · rintro ⟨d, hd, rfl⟩
      obtain ⟨e, he, rfl⟩ := List.mem_map.1 hd
      rw [hkey e he, hfound e he, Option.map_some]
    · intro hlast
      obtain ⟨e, he, rfl⟩ := Option.map_eq_some_iff.1 hlast
      exact ⟨e, List.mem_map.2 ⟨_, (mem_iff_lookup h.nodup).2 he, rfl⟩, rfl⟩
  · intro d hd c hc
    obtain ⟨e, he, rfl⟩ := List.mem_map.1 hd
    obtain ⟨f, hf, rfl⟩ := List.mem_map.1 hc
    rw [hkey e he, hkey f hf]
    exact h.order e.1 f.1 e.2 f.2 (hfound e he) (hfound f hf)

/-- A push gives out the series that have been silent for longer than the
timeout, and the rest is kept. -/
theorem silent_series_emitted (timeout : Duration) (calls : List Call)
    (hcalls : ∀ m, .observe m ∈ calls → m.WellFormed) :
    ∃ l : LastMetrics, callAll (.final timeout .empty) calls = .final timeout l ∧
      (∀ i, (l.memory.lookup i).map Latest.metric = last? Metric.seriesKey timeout i calls) ∧
      ∀ now : Timestamp,
        Emits Metric.seriesKey timeout calls now ((final timeout l).pushed now).1 ∧
        (∀ scan, scan.Perm l.memory →
          ((final timeout ⟨scan, l.next⟩).pushed now).1 = ((final timeout l).pushed now).1) ∧
        (∃ kept, ((final timeout l).pushed now).2 = .final timeout kept ∧
          ∀ i, kept.memory.lookup i =
            (l.memory.lookup i).filter fun e => ¬ e.metric.Silent timeout now) ∧
        ∀ i, Due Metric.seriesKey timeout calls now i → ∀ later : List Call,
          (∀ m, .observe m ∈ later → m.seriesKey ≠ i) →
            ∃ l', callAll (.final timeout l) (.push now :: later) = .final timeout l' ∧
              l'.memory.lookup i = none ∧
              ∀ t, ¬ Due Metric.seriesKey timeout (calls ++ .push now :: later) t i := by
  obtain ⟨l, hl, hkeeps⟩ := keeps_callAll timeout calls
  refine ⟨l, hl, hkeeps.last, fun now => ⟨?_, fun scan hscan => ?_, ⟨_, rfl, ?_⟩, ?_⟩⟩
  · exact hkeeps.recalls.emits hcalls now
  · exact hkeeps.recalls.pushed_eq_of_perm hscan now
  · exact LastMetrics.lookup_push hkeeps.nodup timeout now
  · intro i hdue later hlater
    have hnone := last?_eq_none_iff.2 (unsent_eq_nil_of_not_observed hdue hlater)
    obtain ⟨l', hl', hkeeps'⟩ := keeps_callAll timeout (calls ++ .push now :: later)
    rw [callAll_append, hl] at hl'
    refine ⟨l', hl', Option.map_eq_none_iff.1 ((hkeeps'.last i).trans hnone), fun t hdue' => ?_⟩
    obtain ⟨m, hlast, -⟩ := hdue'
    rw [hnone] at hlast
    cases hlast

def idle (host : String) (s : Int) (value : Int64) : Metric :=
  ⟨"cpu", [("host", host)], [("time_idle", .int value)], .ofSeconds s, .untyped⟩

def idleFinal (host : String) (s : Int) (value : Int64) : Metric :=
  ⟨"cpu", [("host", host)], [("time_idle_final", .int value)], .ofSeconds s, .untyped⟩

theorem silent_series_emitted_in_turn :
    let calls := [.observe (idle "c" 0 1), .observe (idle "a" 0 1), .observe (idle "b" 20 1),
      .observe (idle "c" 5 2)]
    let out := [idleFinal "c" 5 2, idleFinal "a" 0 1]
    ∃ l, callAll (.final (.ofSeconds 30) .empty) calls = .final (.ofSeconds 30) l ∧
      ((final (.ofSeconds 30) l).pushed (.ofSeconds 36)).1 = out ∧
      Emits Metric.seriesKey (.ofSeconds 30) calls (.ofSeconds 36) out ∧
      ∀ scan, scan.Perm l.memory →
        ((final (.ofSeconds 30) ⟨scan, l.next⟩).pushed (.ofSeconds 36)).1 = out := by
  intro calls out
  have hcalls : ∀ m, .observe m ∈ calls → m.WellFormed := by
    intro m hm
    simp only [calls, List.mem_cons, Call.observe.injEq, List.not_mem_nil, or_false] at hm
    rcases hm with rfl | rfl | rfl | rfl
    all_goals exact ⟨by decide, by decide, by decide, by decide⟩
  obtain ⟨l, hl, -, hpush⟩ := silent_series_emitted (.ofSeconds 30) calls hcalls
  obtain ⟨hemits, hscan, -, -⟩ := hpush (.ofSeconds 36)
  have hout : ((final (.ofSeconds 30) l).pushed (.ofSeconds 36)).1 = out := by
    have hperm : ((l.memory.map Prod.snd).filter fun e => LastMetrics.isExpired (.ofSeconds 30)
        (.ofSeconds 36) e.metric).Perm [⟨0, idle "c" 5 2⟩, ⟨1, idle "a" 0 1⟩] := by
      cases hl
      decide +kernel
    refine (LastMetrics.push_fst_of_perm hperm (by decide)).trans ?_
    decide +kernel
  exact ⟨l, hl, hout, hout ▸ hemits, fun scan hperm => (hscan scan hperm).trans hout⟩

end Aggregator
end MetricAgent
