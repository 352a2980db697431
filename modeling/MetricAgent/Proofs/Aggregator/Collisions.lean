import MetricAgent.Proofs.Aggregator.Silence

/-!
# Series that share a key

A series is a name and a map of tags. It is remembered under its key, and two
series may have the same key. Then what comes of the one takes the place of what
has been remembered of the other, which is never given out. An aggregator keeps
series apart (`KeptApart`) exactly as long as this does not happen, that is, as
long as no metric comes of a series while another one with its key waits
(`Unmixed`).
-/

namespace MetricAgent

structure Series where
  name : String
  tags : Tags
deriving DecidableEq, Repr

namespace Series

def of (m : Metric) : Series := ⟨m.name, m.tags⟩

def key (s : Series) : UInt64 := SeriesKey.of s.name s.tags

theorem key_of (m : Metric) : (of m).key = m.seriesKey := rfl

end Series

namespace Aggregator

/-- A history after which no series is taken for another: what is remembered is
the last metric of each series that has not been given out, and a push gives out
those that are due. -/
def KeptApart (timeout : Duration) (calls : List Call) : Prop :=
  ∃ l : LastMetrics, callAll (.final timeout .empty) calls = .final timeout l ∧
    (∀ m, (∃ e ∈ l.memory, e.2.metric = m) ↔
      last? Series.of timeout (Series.of m) calls = some m) ∧
    ∀ now, Emits Series.of timeout calls now ((final timeout l).pushed now).1

/-- A history in which no metric comes of a series while another series with the
same key waits to be given out. -/
def Unmixed (timeout : Duration) (calls : List Call) : Prop :=
  ∀ n m, calls[n]? = some (.observe m) → ∀ s : Series,
    unsent Series.of timeout s (calls.take n) ≠ [] → s.key = m.seriesKey → s = Series.of m

variable {timeout : Duration} {calls : List Call} {m : Metric}

theorem Unmixed.take (h : Unmixed timeout calls) (n : Nat) : Unmixed timeout (calls.take n) := by
  intro k m hcall
  have hk : k < n := by
    have hlength := (List.getElem?_eq_some_iff.1 hcall).1
    rw [List.length_take] at hlength
    omega
  rw [List.getElem?_take_of_lt hk] at hcall
  rw [List.take_take, Nat.min_eq_left (Nat.le_of_lt hk)]
  exact h k m hcall

theorem Unmixed.last (h : Unmixed timeout (calls ++ [.observe m])) {s : Series}
    (hs : unsent Series.of timeout s calls ≠ []) (hkey : s.key = m.seriesKey) :
    s = Series.of m := by
  refine h calls.length m (getElem?_concat_eq_some_iff.2 (.inr ⟨rfl, rfl⟩)) s ?_ hkey
  rwa [List.take_left]

/-! ### Keys in place of series -/

/-- A history whose keys stand for the series. -/
structure Agrees (timeout : Duration) (calls : List Call) : Prop where
  unsent_eq : ∀ s : Series, unsent Series.of timeout s calls ≠ [] →
    unsent Metric.seriesKey timeout s.key calls = unsent Series.of timeout s calls
  exists_series : ∀ k, unsent Metric.seriesKey timeout k calls ≠ [] →
    ∃ s : Series, s.key = k ∧ unsent Series.of timeout s calls ≠ []

theorem agrees_nil : Agrees timeout [] where
  unsent_eq _ h := absurd rfl h
  exists_series _ h := absurd rfl h

theorem Agrees.observe (h : Agrees timeout calls)
    (hm : ∀ s : Series, unsent Series.of timeout s calls ≠ [] → s.key = m.seriesKey →
      s = Series.of m) : Agrees timeout (calls ++ [.observe m]) := by
  -- What waits under the key of the metric is of its own series.
  have hown : unsent Metric.seriesKey timeout m.seriesKey calls =
      unsent Series.of timeout (Series.of m) calls := by
    rw [← Series.key_of]
    by_cases hne : unsent Series.of timeout (Series.of m) calls = []
    · rw [hne]
      by_contra hk
      obtain ⟨s, hkey, hs⟩ := h.exists_series _ hk
      rw [hm s hs hkey] at hs
      exact hs hne
    · exact h.unsent_eq _ hne
  refine ⟨fun s hs => ?_, fun k hk => ?_⟩
  · rw [unsent_concat_observe] at hs ⊢
    rw [unsent_concat_observe]
    by_cases hident : Series.of m = s
    · subst hident
      rw [if_pos rfl, if_pos (Series.key_of m).symm, Series.key_of, hown]
    · rw [if_neg hident] at hs ⊢
      rw [if_neg fun hkey => hident (hm s hs hkey.symm).symm]
      exact h.unsent_eq s hs
  · rw [unsent_concat_observe] at hk
    by_cases hkey : m.seriesKey = k
    · refine ⟨Series.of m, hkey, ?_⟩
      rw [unsent_concat_observe, if_pos rfl]
      exact List.concat_ne_nil _ _
    · rw [if_neg hkey] at hk
      obtain ⟨s, rfl, hs⟩ := h.exists_series k hk
      refine ⟨s, rfl, ?_⟩
      have hident : Series.of m ≠ s := fun hident => hkey (by rw [← hident, Series.key_of])
      rw [unsent_concat_observe, if_neg hident]
      exact hs

theorem Agrees.due_iff (h : Agrees timeout calls) {s : Series}
    (hs : unsent Series.of timeout s calls ≠ []) (now : Timestamp) :
    Due Metric.seriesKey timeout calls now s.key ↔ Due Series.of timeout calls now s := by
  unfold Due last?
  rw [h.unsent_eq s hs]

theorem Agrees.push (h : Agrees timeout calls) (now : Timestamp) :
    Agrees timeout (calls ++ [.push now]) := by
  refine ⟨fun s hs => ?_, fun k hk => ?_⟩
  · have hdue : ¬ Due Series.of timeout calls now s := fun hdue =>
      hs (unsent_concat_push_of_due hdue)
    rw [unsent_concat_push_of_not_due hdue] at hs ⊢
    rw [unsent_concat_push_of_not_due (mt (h.due_iff hs now).1 hdue)]
    exact h.unsent_eq s hs
  · have hdue : ¬ Due Metric.seriesKey timeout calls now k := fun hdue =>
      hk (unsent_concat_push_of_due hdue)
    rw [unsent_concat_push_of_not_due hdue] at hk
    obtain ⟨s, rfl, hs⟩ := h.exists_series k hk
    refine ⟨s, rfl, ?_⟩
    rw [unsent_concat_push_of_not_due (mt (h.due_iff hs now).2 hdue)]
    exact hs

theorem Agrees.reset (h : Agrees timeout calls) : Agrees timeout (calls ++ [.reset]) := by
  refine ⟨fun s hs => ?_, fun k hk => ?_⟩
  · rw [unsent_concat_reset] at hs ⊢
    rw [unsent_concat_reset]
    exact h.unsent_eq s hs
  · rw [unsent_concat_reset] at hk
    obtain ⟨s, hkey, hs⟩ := h.exists_series k hk
    refine ⟨s, hkey, ?_⟩
    rw [unsent_concat_reset]
    exact hs

theorem Unmixed.agrees (h : Unmixed timeout calls) : Agrees timeout calls := by
  induction calls using List.reverseRecOn with
  | nil => exact agrees_nil
  | append_singleton calls c ih =>
      have hbefore : Agrees timeout calls := ih (by simpa using h.take calls.length)
      cases c with
      | observe m => exact hbefore.observe fun s hs hkey => h.last hs hkey
      | push now => exact hbefore.push now
      | reset => exact hbefore.reset

/-- As long as keys stand for series, what is remembered under a key is of the
series that it is taken for. -/
theorem Agrees.last?_eq_iff (h : Agrees timeout calls) :
    last? Metric.seriesKey timeout m.seriesKey calls = some m ↔
      last? Series.of timeout (Series.of m) calls = some m := by
  constructor
  · intro hlast
    obtain ⟨s, hkey, hs⟩ := h.exists_series _ (unsent_ne_nil hlast)
    have hsame : last? Series.of timeout s calls = some m := by
      rw [← hlast, ← hkey]
      exact congrArg _ (congrArg List.getLast? (h.unsent_eq s hs).symm)
    exact (observed_of_last? hsame).2 ▸ hsame
  · intro hlast
    rw [← hlast]
    exact congrArg _ (congrArg List.getLast? (h.unsent_eq _ (unsent_ne_nil hlast)))

theorem Agrees.recalls (h : Agrees timeout calls) {latest : List Latest}
    (hkeys : Recalls Metric.seriesKey timeout calls latest) :
    Recalls Series.of timeout calls latest := by
  have hstart : ∀ e ∈ latest, start Metric.seriesKey timeout e.metric.seriesKey calls =
      start Series.of timeout (Series.of e.metric) calls := by
    intro e he
    have hlast := h.last?_eq_iff.1 (hkeys.last?_eq he)
    unfold start
    rw [← h.unsent_eq _ (unsent_ne_nil hlast), Series.key_of]
  refine ⟨?_, fun m => (hkeys.last m).trans h.last?_eq_iff, fun e he f hf => ?_⟩
  · refine List.Nodup.of_map Series.key ?_
    rw [List.map_map]
    exact hkeys.nodup
  · rw [hkeys.order e he f hf, hstart e he, hstart f hf]

/-- Two series that wait under one key are not kept apart. -/
theorem KeptApart.eq_of_key_eq (h : KeptApart timeout calls) {m n : Metric}
    (hm : last? Series.of timeout (Series.of m) calls = some m)
    (hn : last? Series.of timeout (Series.of n) calls = some n)
    (hkey : m.seriesKey = n.seriesKey) : m = n := by
  obtain ⟨l, hl, hmemory, -⟩ := h
  obtain ⟨l', hl', hkeeps⟩ := keeps_callAll timeout calls
  obtain rfl : l = l' := by
    cases hl.symm.trans hl'
    rfl
  have hlast : ∀ {m}, last? Series.of timeout (Series.of m) calls = some m →
      last? Metric.seriesKey timeout m.seriesKey calls = some m := by
    intro m hm
    obtain ⟨e, he, rfl⟩ := (hmemory m).2 hm
    exact hkeeps.recalls.last?_eq (List.mem_map_of_mem he)
  -- There is one metric under one key.
  have hsame := hlast hm
  rw [hkey, hlast hn] at hsame
  exact (Option.some.inj hsame).symm

/-- Series are kept apart as long as none comes while another one with its key
waits. -/
theorem kept_apart_iff_unmixed (timeout : Duration) (calls : List Call)
    (hcalls : ∀ m, .observe m ∈ calls → m.WellFormed) :
    (∀ n, KeptApart timeout (calls.take n)) ↔ Unmixed timeout calls := by
  constructor
  · intro hkept n m hcall s hs hkey
    have hafter : calls.take (n + 1) = calls.take n ++ [.observe m] := by
      rw [List.take_add_one, hcall, Option.toList_some]
    have happart := hkept (n + 1)
    rw [hafter] at happart
    by_contra hne
    -- The other series still waits after the call that brings the metric.
    have hwaits : unsent Series.of timeout s (calls.take n ++ [.observe m]) ≠ [] := by
      rw [unsent_concat_observe, if_neg (Ne.symm hne)]
      exact hs
    obtain ⟨m', hlast'⟩ := Option.ne_none_iff_exists'.1 (mt last?_eq_none_iff.1 hwaits)
    obtain rfl : Series.of m' = s := (observed_of_last? hlast').2
    have hlast : last? Series.of timeout (Series.of m) (calls.take n ++ [.observe m]) = some m := by
      rw [last?_concat_observe, if_pos rfl]
    exact hne (congrArg Series.of (happart.eq_of_key_eq hlast' hlast hkey))
  · intro h n
    obtain ⟨l, hl, hkeeps⟩ := keeps_callAll timeout (calls.take n)
    have hrecalls := (h.take n).agrees.recalls hkeeps.recalls
    refine ⟨l, hl, fun m => (Iff.trans ?_ (hrecalls.last m)), fun now => ?_⟩
    · constructor
      · rintro ⟨e, he, hem⟩
        exact ⟨e.2, List.mem_map_of_mem he, hem⟩
      · rintro ⟨d, hd, hdm⟩
        obtain ⟨e, he, rfl⟩ := List.mem_map.1 hd
        exact ⟨e, he, hdm⟩
    · exact hrecalls.emits (fun m hm => hcalls m (List.mem_of_mem_take hm)) now

/-- Two names under which series without tags have one key. -/
def sharedName (other : Bool) : String :=
  if other then "mp7ein0u<+w62@Xr" else "o7xrkbnef62n3nh8"

def sharing (other : Bool) (s : Int) (value : Int64) : Metric :=
  ⟨sharedName other, [], [("v", .int value)], .ofSeconds s, .untyped⟩

theorem seriesKey_sharing (other : Bool) (s : Int) (value : Int64) :
    (sharing other s value).seriesKey = 2033842632369345382 := by
  have hkey : ∀ other, SeriesKey.of (sharedName other) [] = 2033842632369345382 := by
    decide +kernel
  exact hkey other

theorem wellFormed_sharing (other : Bool) (s : Int) (value : Int64) :
    (sharing other s value).WellFormed where
  name_ne := (by decide : ∀ other, sharedName other ≠ "") other
  fields_ne := List.cons_ne_nil _ _
  tags_sorted := SortedPairs.sorted_nil
  fields_distinct := List.nodup_singleton _

/-- A series may follow another one with its key once that one has been given out. -/
theorem kept_apart_iff_unmixed_in_turn :
    (sharing false 5 1).seriesKey = (sharing true 1006 2).seriesKey ∧
      ∀ n, KeptApart (.ofSeconds 1) (List.take n [.observe (sharing false 5 1),
        .push (.ofSeconds 1000), .observe (sharing true 1006 2)]) := by
  have hunmixed : Unmixed (.ofSeconds 1) [.observe (sharing false 5 1), .push (.ofSeconds 1000),
      .observe (sharing true 1006 2)] := by
    intro n m hcall s hs hkey
    match n with
    | 0 => exact absurd rfl hs
    | 1 => cases hcall
    | 2 =>
        refine absurd ?_ hs
        by_cases hident : Series.of (sharing false 5 1) = s
        · subst hident
          decide +kernel
        · simp [unsent, unsentAfter, hident]
    | n + 3 => cases hcall
  refine ⟨?_, (kept_apart_iff_unmixed _ _ fun m hm => ?_).2 hunmixed⟩
  · rw [seriesKey_sharing, seriesKey_sharing]
  simp only [List.mem_cons, Call.observe.injEq, reduceCtorEq, List.not_mem_nil, or_false,
    false_or] at hm
  rcases hm with rfl | rfl
  all_goals exact wellFormed_sharing _ _ _

/-- A series that comes while another one with its key waits takes its place. -/
theorem series_with_one_key_conflated :
    let calls := [.observe (sharing false 5 1), .observe (sharing true 6 2)]
    (∀ m, .observe m ∈ calls → m.WellFormed) ∧
      Due Series.of (.ofSeconds 1) calls (.ofSeconds 1000) (Series.of (sharing false 5 1)) ∧
      ((callAll (.final (.ofSeconds 1) .empty) calls).pushed (.ofSeconds 1000)).1 =
        [⟨"mp7ein0u<+w62@Xr", [], [("v_final", .int 2)], .ofSeconds 6, .untyped⟩] ∧
      ¬ KeptApart (.ofSeconds 1) calls := by
  intro calls
  refine ⟨fun m hm => ?_, ⟨_, rfl, by decide +kernel⟩, ?_, fun happart => ?_⟩
  · simp only [calls, List.mem_cons, Call.observe.injEq, List.not_mem_nil, or_false] at hm
    rcases hm with rfl | rfl
    all_goals exact wellFormed_sharing _ _ _
  · have hlast : callAll (.final (.ofSeconds 1) .empty) calls = .final (.ofSeconds 1)
        ⟨[(2033842632369345382, ⟨0, sharing true 6 2⟩)], 1⟩ := rfl
    rw [hlast]
    refine (LastMetrics.push_fst_of_perm (.refl _) ?_).trans ?_
    · exact (List.pairwise_singleton _ _).filter _
    · decide +kernel
  · have hkey : (sharing false 5 1).seriesKey = (sharing true 6 2).seriesKey := by
      rw [seriesKey_sharing, seriesKey_sharing]
    have hsame : sharing false 5 1 = sharing true 6 2 := happart.eq_of_key_eq rfl rfl hkey
    exact absurd hsame (by decide)

end Aggregator
end MetricAgent
