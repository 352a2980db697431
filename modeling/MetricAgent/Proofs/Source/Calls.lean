import MetricAgent.Proofs.Metric.Fields
import MetricAgent.Proofs.Metric.Integrity
import MetricAgent.Proofs.Time.Rounding
import MetricAgent.Source.Gatherer

/-!
# What becomes of a call

What becomes of a call to an accumulator depends on the settings of its source and on
the precision of the clone alone (`GatherSettings.callOutcome`). A metric gets its new
name and the tags that it does not carry yet, and is sent or dropped by the filter. A
measurement is first made a metric, with its timestamp rounded down, and what cannot
be one is recorded as an error. A call does what becomes of it, and nothing else
(`Accumulator.call_eq_after`).
-/

namespace MetricAgent

open SortedPairs (Sorted)

inductive CallOutcome where
  | sent (m : Metric)
  /-- The filter does not let the metric through. -/
  | dropped
  | recorded (text : String)

namespace CallOutcome

def metric? : CallOutcome → Option Metric
  | sent m => some m
  | _ => none

def error? : CallOutcome → Option String
  | recorded text => some text
  | _ => none

end CallOutcome

namespace GatherSettings

variable (s : GatherSettings)

/-- The precision of a source in nanoseconds: the one that is configured, up to a
second, or else the longest unit that is no longer than the interval. -/
def precisionNanos : Nat :=
  match s.precision.filter fun p => 0 < p.nanos with
  | some p => min p.nanos 1000000000
  | none =>
    if s.interval.nanos = 0 then 1000000000
    else ([1000000000, 1000000, 1000].find? (· ≤ s.interval.nanos)).getD 1

/-- The precision in effect, which may have been set on a clone. -/
def precisionIn : Option Duration → Nat
  | none => s.precisionNanos
  | some p => max 1 (min p.nanos 1000000000)

/-- A metric with its new name, and with all tags: its own come before those of the
source, and these before the global ones. -/
def dressed (m : Metric) : Metric :=
  { m with
    name := if s.rename.name = "" then s.rename.before ++ m.name ++ s.rename.after
      else s.rename.name
    tags := SortedPairs.ofList (s.globalTags.reverse ++ (s.tags.reverse ++ m.tags)) }

def outcomeOf (m : Metric) : CallOutcome :=
  match s.filter.apply (s.dressed m) with
  | some n => .sent n
  | none => .dropped

def callOutcome (precision : Option Duration) (now : Timestamp) : Call → CallOutcome
  | .measure name fields tags timestamp kind =>
    if name = "" then .recorded "metric name must not be empty"
    else if fields = [] then .recorded "metric must carry at least one field"
    else s.outcomeOf {
      name
      tags := SortedPairs.ofList tags
      fields := Fields.latest fields
      timestamp := (timestamp.getD now).floor (s.precisionIn precision)
      kind }
  | .metric m => s.outcomeOf m
  | .error text => .recorded text

end GatherSettings

/-- The tags of a metric that is handed over ready-made are sorted. -/
def Call.Tidy (c : Call) : Prop := ∀ m, c = .metric m → Sorted m.tags

/-! ### Tags -/

namespace GatherSettings

variable {s : GatherSettings} {m : Metric}

/-- The own tags of a metric come before those of its source, and these before the
global ones. -/
theorem tag?_dressed (h : Sorted m.tags) (key : String) :
    (s.dressed m).tag? key =
      ((m.tag? key).or (s.tags.lookup key)).or (s.globalTags.lookup key) := by
  unfold dressed Metric.tag?
  rw [Tags.get?_ofList, List.reverse_append, List.reverse_append, List.reverse_reverse,
    List.reverse_reverse, List.lookup_append, List.lookup_append, Tags.lookup_reverse h]

theorem maker_eq (h : Sorted m.tags) : s.maker m = s.filter.apply (s.dressed m) := by
  have hown := Tags.sorted_insertMissing h s.tags
  have htags : Tags.insertMissing s.globalTags (Tags.insertMissing s.tags m.tags) =
      (s.dressed m).tags := by
    refine Tags.eq_of_get? (Tags.sorted_insertMissing hown _) (SortedPairs.sorted_ofList _)
      fun k => ?_
    rw [Tags.get?_insertMissing hown, Tags.get?_insertMissing h]
    exact (tag?_dressed h k).symm
  have hrename : s.rename.apply m = { m with name := (s.rename.apply m).name } := by
    unfold Rename.apply Metric.setName
    split <;> rfl
  unfold maker
  rw [hrename, Rename.name_apply]
  unfold Metric.addMissingTags
  dsimp only
  rw [htags]
  rfl

end GatherSettings

/-! ### Precision -/

theorem Precision.nanos_bounded (d : Duration) :
    (bounded d).nanos = max 1 (min d.nanos 1000000000) := by
  have hlo : (Duration.ofNanos 1).nanos = 1 := rfl
  have hhi : (Duration.ofSeconds 1).nanos = 1000000000 := rfl
  unfold bounded Duration.clamp
  split
  · next h =>
    change d.nanos < 1 at h
    omega
  · next h =>
    change ¬ d.nanos < 1 at h
    split
    · next h =>
      change 1000000000 < d.nanos at h
      omega
    · next h =>
      change ¬ 1000000000 < d.nanos at h
      omega

/-- The longest unit that is no longer than an interval. -/
theorem Precision.nanos_ofInterval (interval : Duration) :
    (ofInterval interval).nanos =
      if interval.nanos = 0 then 1000000000
      else ([1000000000, 1000000, 1000].find? (· ≤ interval.nanos)).getD 1 := by
  have hunit : ∀ {c : Prop} [Decidable c] (a b : Duration),
      (if c then a else b).nanos = if c then a.nanos else b.nanos := fun a b => apply_ite _ _ a b
  have hfind : ∀ (unit : Nat) (units : List Nat),
      ((unit :: units).find? (· ≤ interval.nanos)).getD 1 =
        if unit ≤ interval.nanos then unit else (units.find? (· ≤ interval.nanos)).getD 1 := by
    intro unit units
    rw [List.find?_cons]
    by_cases h : unit ≤ interval.nanos <;> simp [h]
  unfold ofInterval
  simp only [hunit, hfind, Duration.isZero, beq_iff_eq]
  rfl

theorem Precision.nanos_ofInterval_bounds (interval : Duration) :
    1 ≤ (ofInterval interval).nanos ∧ (ofInterval interval).nanos ≤ 1000000000 := by
  unfold ofInterval
  repeat' split
  all_goals decide

namespace GatherSettings

theorem nanos_effectivePrecision (s : GatherSettings) :
    s.effectivePrecision.nanos = s.precisionNanos := by
  have hderived : (Precision.bounded (Precision.ofInterval s.interval)).nanos =
      (Precision.ofInterval s.interval).nanos := by
    have hbounds := Precision.nanos_ofInterval_bounds s.interval
    rw [Precision.nanos_bounded]
    omega
  unfold effectivePrecision precisionNanos
  rw [← Precision.nanos_ofInterval]
  cases s.precision with
  | none => exact hderived
  | some p =>
      rw [Option.filter_some]
      cases hp : p.isZero with
      | true =>
          have hzero : ¬ 0 < p.nanos := by simp [beq_iff_eq.1 hp]
          simpa only [hzero, decide_false, hp, if_true, Bool.false_eq_true, if_false] using hderived
      | false =>
          have hpos := Duration.isZero_eq_false_iff.1 hp
          simp only [hpos, decide_true, hp, if_true, Bool.false_eq_true, if_false,
            Precision.nanos_bounded]
          omega

theorem precisionIn_bounds (s : GatherSettings) (precision : Option Duration) :
    1 ≤ s.precisionIn precision ∧ s.precisionIn precision ≤ 1000000000 := by
  cases precision with
  | none =>
      have heffective := s.nanos_effectivePrecision
      unfold effectivePrecision at heffective
      rw [Precision.nanos_bounded] at heffective
      change 1 ≤ s.precisionNanos ∧ s.precisionNanos ≤ 1000000000
      omega
  | some p =>
      unfold precisionIn
      dsimp only
      omega

end GatherSettings

/-! ### Calls -/

theorem Fields.ofList_ne_nil {pairs : List (String × FieldValue)} (h : pairs ≠ []) :
    ofList pairs ≠ [] := by
  obtain ⟨p, pairs, rfl⟩ := List.exists_cons_of_ne_nil h
  exact insertAll_ne_nil (insert_ne_nil p.1 p.2 []) pairs

namespace Accumulator

/-- An accumulator after a call of which something has become. -/
def after (a : Accumulator) : CallOutcome → Accumulator
  | .sent m => { a with made := a.made + 1, sent := a.sent ++ [m] }
  | .dropped => a
  | .recorded text => a.addError text

variable {a : Accumulator} {s : GatherSettings}

theorem sent_after (a : Accumulator) (o : CallOutcome) :
    (a.after o).sent = a.sent ++ o.metric?.toList := by
  cases o with
  | sent m => rfl
  | dropped => exact (List.append_nil a.sent).symm
  | recorded text => exact (List.append_nil a.sent).symm

theorem errors_after (a : Accumulator) (o : CallOutcome) :
    (a.after o).errors = a.errors ++ o.error?.toList := by
  cases o with
  | sent m => exact (List.append_nil a.errors).symm
  | dropped => exact (List.append_nil a.errors).symm
  | recorded text => rfl

theorem made_after (a : Accumulator) (o : CallOutcome) :
    (a.after o).made = a.made + o.metric?.toList.length := by
  cases o <;> rfl

theorem send_eq_after (hmaker : a.maker = s.maker) (hopen : a.isOpen = true) {m : Metric}
    (hm : Sorted m.tags) : a.send m = a.after (s.outcomeOf m) := by
  have hmade : a.maker m = s.filter.apply (s.dressed m) := by
    rw [hmaker, GatherSettings.maker_eq hm]
  unfold send GatherSettings.outcomeOf
  rw [hmade]
  cases s.filter.apply (s.dressed m) with
  | none => rfl
  | some n =>
      dsimp only
      rw [if_pos hopen]
      rfl

/-- A call does what becomes of it, and nothing else. -/
theorem call_eq_after (hmaker : a.maker = s.maker) (hopen : a.isOpen = true)
    {c : Call} (hc : c.Tidy) (precision : Option Duration) (now : Timestamp) :
    a.call ((precision.map Precision.bounded).getD s.effectivePrecision) now c =
      a.after (s.callOutcome precision now c) := by
  cases c with
  | metric m => exact send_eq_after hmaker hopen (hc m rfl)
  | error text => rfl
  | measure name fields tags timestamp kind =>
      have hbounds := s.precisionIn_bounds precision
      have hnanos : ((precision.map Precision.bounded).getD s.effectivePrecision).nanos =
          s.precisionIn precision := by
        cases precision with
        | none => exact s.nanos_effectivePrecision
        | some p => exact Precision.nanos_bounded p
      simp only [call, Metric.make, GatherSettings.callOutcome]
      have hmax : (s.precisionIn precision : Int) ≤ Timestamp.maxNanos :=
        Int.le_trans (Int.ofNat_le.2 hbounds.2) (by decide)
      rw [Timestamp.truncate_eq_floor _ (hnanos ▸ hbounds.1) (hnanos ▸ hmax), hnanos,
        Fields.ofList_eq_latest]
      by_cases hname : name = ""
      · rw [if_pos hname, if_pos hname]
        rfl
      · rw [if_neg hname, if_neg hname]
        by_cases hfields : fields = []
        · subst hfields
          rfl
        · have hlatest : (Fields.latest fields).isEmpty = false := by
            rw [← Fields.ofList_eq_latest, List.isEmpty_eq_false_iff]
            exact Fields.ofList_ne_nil hfields
          rw [hlatest, if_neg Bool.false_ne_true, if_neg hfields]
          have htags : Tags.insertAll tags [] = SortedPairs.ofList tags :=
            Tags.insertAll_eq_sortedInsertAll SortedPairs.sorted_nil tags
          unfold Metric.addTags
          dsimp only
          rw [htags]
          exact send_eq_after hmaker hopen (SortedPairs.sorted_ofList tags)

theorem made_le_send (a : Accumulator) (m : Metric) : a.made ≤ (a.send m).made := by
  unfold send
  split
  · exact Nat.le_refl _
  · exact Nat.le_succ _

theorem made_le_call (a : Accumulator) (precision : Duration) (now : Timestamp) (c : Call) :
    a.made ≤ (a.call precision now c).made := by
  cases c with
  | measure name fields tags timestamp kind =>
      unfold call
      dsimp only
      split
      · exact made_le_send _ _
      · exact Nat.le_refl _
  | metric m => exact a.made_le_send m
  | error text => exact Nat.le_refl _

theorem made_le_callAll (a : Accumulator) (precision : Duration) (now : Timestamp)
    (calls : List Call) : a.made ≤ (a.callAll precision now calls).made :=
  List.foldlRecOn (motive := fun b : Accumulator => a.made ≤ b.made) calls _ (Nat.le_refl _)
    fun b hb c _ => Nat.le_trans hb (b.made_le_call precision now c)

end Accumulator

end MetricAgent
