import MetricAgent.Aggregator.Basic
import MetricAgent.Proofs.Lists

/-!
# What waits to be given out

An aggregator that waits for series to fall silent is held against the history
of its calls. What counts of a history is, for each series, what has come of it
since it was given out last (`unsent`): the last metric decides whether the
series is due, and the first one its place among those that are. What a series
is, is left open here; it may be the key of a metric or its name and tags.
-/

namespace MetricAgent

namespace Metric

/-- Whether a series with this last metric has been silent for longer than a
timeout. The time in between counts as none if the metric is from later, and as
the greatest timestamp if it is longer than that. -/
def Silent (timeout : Duration) (now : Timestamp) (m : Metric) : Prop :=
  (timeout.nanos : Int) < max 0 (min (now.nanos - m.timestamp.nanos) Timestamp.maxNanos)

instance (timeout : Duration) (now : Timestamp) (m : Metric) : Decidable (m.Silent timeout now) :=
  inferInstanceAs (Decidable (_ < _))

/-- A metric as it is given out at the end of its series, its kind aside. -/
structure Ends (m out : Metric) : Prop where
  name : out.name = m.name
  tags : out.tags = m.tags
  timestamp : out.timestamp = m.timestamp
  fields : out.fields = m.fields.map fun f => (f.1 ++ "_final", f.2)

end Metric

namespace Aggregator

inductive Call where
  | observe (m : Metric)
  | push (now : Timestamp)
  | reset

def call (a : Aggregator) : Call → Aggregator
  | .observe m => a.observe m
  | .push now => (a.pushed now).2
  | .reset => a.reset

def callAll (a : Aggregator) (calls : List Call) : Aggregator := calls.foldl call a

theorem callAll_append (a : Aggregator) (calls later : List Call) :
    a.callAll (calls ++ later) = (a.callAll calls).callAll later :=
  List.foldl_append

/-! ### What waits to be given out -/

variable {ι : Type} [DecidableEq ι] (ident : Metric → ι) (timeout : Duration)

/-- What has come of a series since it was given out last, after one more call:
its metrics, each with the number of calls before it. -/
def unsentAfter (i : ι) (unsent : List (Nat × Metric)) (n : Nat) : Call → List (Nat × Metric)
  | .observe m => if ident m = i then unsent ++ [(n, m)] else unsent
  | .push now => if unsent.getLast?.any fun e => e.2.Silent timeout now then [] else unsent
  | .reset => unsent

/-- What has come of a series since it was given out last, after a history. -/
def unsent (i : ι) (calls : List Call) : List (Nat × Metric) :=
  calls.zipIdx.foldl (fun metrics c => unsentAfter ident timeout i metrics c.2 c.1) []

def last? (i : ι) (calls : List Call) : Option Metric :=
  (unsent ident timeout i calls).getLast?.map Prod.snd

/-- The number of calls before the first metric of a series that has not been
given out. -/
def start (i : ι) (calls : List Call) : Nat :=
  ((unsent ident timeout i calls).head?.map Prod.fst).getD 0

def Due (calls : List Call) (now : Timestamp) (i : ι) : Prop :=
  ∃ m, last? ident timeout i calls = some m ∧ m.Silent timeout now

/-- What a push gives out after a history: one metric for each series that is
due, in the order in which they came. -/
def Emits (calls : List Call) (now : Timestamp) (out : List Metric) : Prop :=
  ∃ series : List ι, (∀ i, i ∈ series ↔ Due ident timeout calls now i) ∧
    series.Pairwise (fun i j => start ident timeout i calls < start ident timeout j calls) ∧
    List.Forall₂ (fun i n => ∃ m, last? ident timeout i calls = some m ∧ m.Ends n) series out

variable {ident timeout} {i j : ι} {calls : List Call} {now : Timestamp} {m : Metric}

theorem unsent_concat (i : ι) (calls : List Call) (c : Call) :
    unsent ident timeout i (calls ++ [c]) =
      unsentAfter ident timeout i (unsent ident timeout i calls) calls.length c := by
  simp [unsent, List.zipIdx_append]

theorem unsent_concat_observe (m : Metric) :
    unsent ident timeout i (calls ++ [.observe m]) =
      if ident m = i then unsent ident timeout i calls ++ [(calls.length, m)]
      else unsent ident timeout i calls :=
  unsent_concat i calls _

theorem due_iff : Due ident timeout calls now i ↔
    (unsent ident timeout i calls).getLast?.any (fun e => e.2.Silent timeout now) = true := by
  unfold Due last?
  cases (unsent ident timeout i calls).getLast? <;> simp

theorem unsent_concat_push_of_due (h : Due ident timeout calls now i) :
    unsent ident timeout i (calls ++ [.push now]) = [] :=
  (unsent_concat i calls _).trans (if_pos (due_iff.1 h))

theorem unsent_concat_push_of_not_due (h : ¬ Due ident timeout calls now i) :
    unsent ident timeout i (calls ++ [.push now]) = unsent ident timeout i calls :=
  (unsent_concat i calls _).trans (if_neg (mt due_iff.2 h))

theorem unsent_concat_reset :
    unsent ident timeout i (calls ++ [.reset]) = unsent ident timeout i calls :=
  unsent_concat i calls _

theorem last?_eq_none_iff :
    last? ident timeout i calls = none ↔ unsent ident timeout i calls = [] := by
  simp [last?]

theorem unsent_ne_nil (h : last? ident timeout i calls = some m) :
    unsent ident timeout i calls ≠ [] := by
  intro hnil
  rw [last?_eq_none_iff.2 hnil] at h
  cases h

theorem last?_concat_observe (m : Metric) :
    last? ident timeout i (calls ++ [.observe m]) =
      if ident m = i then some m else last? ident timeout i calls := by
  unfold last?
  rw [unsent_concat_observe]
  split
  · rw [List.getLast?_concat, Option.map_some]
  · rfl

theorem last?_concat_push (now : Timestamp) :
    last? ident timeout i (calls ++ [.push now]) =
      (last? ident timeout i calls).filter fun m => ¬ m.Silent timeout now := by
  by_cases hdue : Due ident timeout calls now i
  · obtain ⟨m, hlast, hsilent⟩ := hdue
    rw [last?_eq_none_iff.2 (unsent_concat_push_of_due ⟨m, hlast, hsilent⟩), hlast]
    exact (Option.filter_some_neg (a := m) (decide_eq_false (not_not_intro hsilent))).symm
  · have hkept : last? ident timeout i (calls ++ [.push now]) = last? ident timeout i calls := by
      unfold last?
      rw [unsent_concat_push_of_not_due hdue]
    rw [hkept]
    cases hlast : last? ident timeout i calls with
    | none => rfl
    | some m =>
        have hawake : ¬ m.Silent timeout now := fun hsilent => hdue ⟨m, hlast, hsilent⟩
        exact (Option.filter_some_pos (a := m) (decide_eq_true hawake)).symm

/-- What is unsent of a series has been observed, and is of that series. -/
theorem observed_of_mem_unsent {n : Nat} (h : (n, m) ∈ unsent ident timeout i calls) :
    calls[n]? = some (.observe m) ∧ ident m = i := by
  induction calls using List.reverseRecOn with
  | nil => cases h
  | append_singleton calls c ih =>
      have hold : (n, m) ∈ unsent ident timeout i calls →
          (calls ++ [c])[n]? = some (.observe m) ∧ ident m = i := fun hmem =>
        ⟨getElem?_concat_eq_some_iff.2 (.inl (ih hmem).1), (ih hmem).2⟩
      rw [unsent_concat] at h
      cases c with
      | observe m' =>
          simp only [unsentAfter] at h
          split at h
          · next hident =>
            rcases List.mem_append.1 h with hmem | hmem
            · exact hold hmem
            · cases List.mem_singleton.1 hmem
              exact ⟨getElem?_concat_eq_some_iff.2 (.inr ⟨rfl, rfl⟩), hident⟩
          · exact hold h
      | push now =>
          simp only [unsentAfter] at h
          split at h
          · cases h
          · exact hold h
      | reset => exact hold h

theorem observed_of_last? (h : last? ident timeout i calls = some m) :
    .observe m ∈ calls ∧ ident m = i := by
  obtain ⟨⟨n, m'⟩, hlast, rfl⟩ := Option.map_eq_some_iff.1 h
  obtain ⟨hcall, hident⟩ := observed_of_mem_unsent (List.mem_of_getLast? hlast)
  exact ⟨List.mem_of_getElem? hcall, hident⟩

/-- The start of a series is the call that brought a metric of it. -/
theorem observed_at_start (h : unsent ident timeout i calls ≠ []) :
    ∃ m, calls[start ident timeout i calls]? = some (.observe m) ∧ ident m = i := by
  obtain ⟨⟨n, m⟩, rest, hunsent⟩ := List.exists_cons_of_ne_nil h
  have hstart : start ident timeout i calls = n := by
    unfold start
    rw [hunsent]
    rfl
  rw [hstart]
  exact ⟨m, observed_of_mem_unsent (hunsent ▸ List.mem_cons_self)⟩

theorem start_lt_length (h : unsent ident timeout i calls ≠ []) :
    start ident timeout i calls < calls.length := by
  obtain ⟨m, hcall, -⟩ := observed_at_start h
  exact (List.getElem?_eq_some_iff.1 hcall).1

/-- One call brings a metric of one series only. -/
theorem eq_of_start_eq (hi : unsent ident timeout i calls ≠ [])
    (hj : unsent ident timeout j calls ≠ [])
    (h : start ident timeout i calls = start ident timeout j calls) : i = j := by
  obtain ⟨m, hcall, rfl⟩ := observed_at_start hi
  obtain ⟨m', hcall', rfl⟩ := observed_at_start hj
  rw [h, hcall'] at hcall
  cases hcall
  rfl

theorem start_concat_observe (h : unsent ident timeout i calls ≠ []) (m : Metric) :
    start ident timeout i (calls ++ [.observe m]) = start ident timeout i calls := by
  unfold start
  rw [unsent_concat_observe]
  split
  · rw [List.head?_append_of_ne_nil _ h]
  · rfl

theorem start_concat_observe_self (m : Metric) (h : unsent ident timeout (ident m) calls = []) :
    start ident timeout (ident m) (calls ++ [.observe m]) = calls.length := by
  unfold start
  rw [unsent_concat_observe, if_pos rfl, h]
  rfl

/-- Nothing comes of a series that has been given out before it is observed
again. -/
theorem unsent_eq_nil_of_not_observed (h : Due ident timeout calls now i) {later : List Call}
    (hlater : ∀ m, .observe m ∈ later → ident m ≠ i) :
    unsent ident timeout i (calls ++ .push now :: later) = [] := by
  induction later using List.reverseRecOn with
  | nil => exact unsent_concat_push_of_due h
  | append_singleton later c ih =>
      have hbefore := ih fun m hm => hlater m (List.mem_append_left _ hm)
      rw [← List.cons_append, ← List.append_assoc, unsent_concat, hbefore]
      cases c with
      | observe m => exact if_neg (hlater m (List.mem_append_right _ List.mem_cons_self))
      | push t => rfl
      | reset => rfl

end Aggregator
end MetricAgent
