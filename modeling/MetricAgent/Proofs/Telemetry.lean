import MetricAgent.Proofs.Lists
import MetricAgent.Telemetry

/-!
# Readings as a map

Readings stand in the order of their names, so none has two entries, and
changing one of them (`Telemetry.update`) changes what is looked up under its
name and nothing else. `Telemetry.Shows` says what a counter or a gauge shows,
where one that was never touched shows zero: counting adds to that number, and
setting replaces it.
-/

namespace MetricAgent

namespace Telemetry

variable {t : Telemetry} {readings : List (String × Reading)} {name other : String}
  {kind : Nat → Reading} {n : Nat}

def Sorted (t : Telemetry) : Prop := t.readings.Pairwise fun r s => r.1 < s.1

/-- A counter or a gauge stands at a number. One that is absent stands at zero. -/
def Shows (t : Telemetry) (kind : Nat → Reading) (name : String) (n : Nat) : Prop :=
  t.readings.lookup name = some (kind n) ∨ t.readings.lookup name = none ∧ n = 0

theorem sorted_make (component name : String) (id : Option String) :
    (make component name id).Sorted :=
  List.Pairwise.nil

theorem shows_make (component name : String) (id : Option String) (kind : Nat → Reading)
    (reading : String) : (make component name id).Shows kind reading 0 :=
  .inr ⟨List.lookup_nil, rfl⟩

theorem lookup_eq_none_of_lt (h : ∀ r ∈ readings, name < r.1) : readings.lookup name = none := by
  rw [List.lookup_eq_none_iff]
  intro r hr
  exact bne_iff_ne.2 (Std.ne_of_lt (h r hr))

theorem lookup_update_of_ne (change : Option Reading → Reading) (h : other ≠ name) :
    (update name change readings).lookup other = readings.lookup other := by
  induction readings with
  | nil => rw [update_nil, lookup_cons_ite, if_neg h]
  | cons r rest ih =>
      obtain ⟨m, r⟩ := r
      unfold update
      split
      · next heq =>
        subst heq
        rw [lookup_cons_ite, lookup_cons_ite, if_neg h, if_neg h]
      · split
        · rw [lookup_cons_ite, if_neg h]
        · rw [lookup_cons_ite, lookup_cons_ite, ih]

theorem lookup_update_self (change : Option Reading → Reading)
    (h : readings.Pairwise fun r s => r.1 < s.1) :
    (update name change readings).lookup name = some (change (readings.lookup name)) := by
  induction readings with
  | nil => rw [update_nil, lookup_cons_ite, if_pos rfl, List.lookup_nil]
  | cons r rest ih =>
      obtain ⟨m, r⟩ := r
      obtain ⟨hlt, hrest⟩ := List.pairwise_cons.1 h
      unfold update
      split
      · next heq => rw [lookup_cons_ite, lookup_cons_ite, if_pos heq, if_pos heq]
      · next hne =>
        split
        · next hbefore =>
          have hnone : ((m, r) :: rest).lookup name = none := by
            refine lookup_eq_none_of_lt fun s hs => ?_
            rcases List.mem_cons.1 hs with rfl | hs
            · exact hbefore
            · exact String.lt_trans hbefore (hlt s hs)
          rw [lookup_cons_ite, if_pos rfl, hnone]
        · rw [lookup_cons_ite, lookup_cons_ite, if_neg hne, if_neg hne, ih hrest]

theorem eq_or_mem_of_mem_update {change : Option Reading → Reading} {s : String × Reading}
    (h : s ∈ update name change readings) : s.1 = name ∨ s ∈ readings := by
  induction readings with
  | nil => exact .inl (congrArg Prod.fst (List.mem_singleton.1 h))
  | cons r rest ih =>
      unfold update at h
      split at h
      · next heq =>
        rcases List.mem_cons.1 h with rfl | hs
        · exact .inl heq.symm
        · exact .inr (List.mem_cons_of_mem _ hs)
      · split at h
        · rcases List.mem_cons.1 h with rfl | hs
          · exact .inl rfl
          · exact .inr hs
        · rcases List.mem_cons.1 h with rfl | hs
          · exact .inr List.mem_cons_self
          · exact (ih hs).imp_right (List.mem_cons_of_mem _)

theorem sorted_update (change : Option Reading → Reading)
    (h : readings.Pairwise fun r s => r.1 < s.1) :
    (update name change readings).Pairwise fun r s => r.1 < s.1 := by
  induction readings with
  | nil => exact List.pairwise_singleton _ _
  | cons r rest ih =>
      obtain ⟨m, r⟩ := r
      obtain ⟨hlt, hrest⟩ := List.pairwise_cons.1 h
      unfold update
      split
      · next heq => exact List.pairwise_cons.2 ⟨heq ▸ hlt, hrest⟩
      · next hne =>
        split
        · next hbefore =>
          refine List.pairwise_cons.2 ⟨fun s hs => ?_, h⟩
          rcases List.mem_cons.1 hs with rfl | hs
          · exact hbefore
          · exact String.lt_trans hbefore (hlt s hs)
        · next hbefore =>
          refine List.pairwise_cons.2 ⟨fun s hs => ?_, ih hrest⟩
          rcases eq_or_mem_of_mem_update hs with heq | hs
          · rw [heq]
            exact Std.lt_of_le_of_ne (String.not_lt.1 hbefore) (Ne.symm hne)
          · exact hlt s hs

/-! ### Counting and setting -/

theorem Sorted.count (h : t.Sorted) (name : String) (k : Nat) : (t.count name k).Sorted :=
  sorted_update _ h

theorem Sorted.set (h : t.Sorted) (name : String) (k : Nat) : (t.set name k).Sorted :=
  sorted_update _ h

theorem Shows.count (h : t.Shows .counter name n) (hs : t.Sorted) (k : Nat) :
    (t.count name k).Shows .counter name (n + k) := by
  refine .inl ?_
  simp only [Telemetry.count, lookup_update_self _ hs]
  rcases h with h | ⟨h, rfl⟩
  · simp only [h]
  · simp only [h, Nat.zero_add]

theorem shows_set (hs : t.Sorted) (name : String) (k : Nat) : (t.set name k).Shows .gauge name k :=
  .inl (lookup_update_self _ hs)

theorem Shows.count_of_ne (h : t.Shows kind name n) (hne : name ≠ other) (k : Nat) :
    (t.count other k).Shows kind name n := by
  simpa only [Shows, Telemetry.count, lookup_update_of_ne _ hne] using h

theorem Shows.set_of_ne (h : t.Shows kind name n) (hne : name ≠ other) (k : Nat) :
    (t.set other k).Shows kind name n := by
  simpa only [Shows, Telemetry.set, lookup_update_of_ne _ hne] using h

theorem update_update (name : String) (f g : Option Reading → Reading)
    (readings : List (String × Reading)) :
    update name f (update name g readings) = update name (fun r => f (some (g r))) readings := by
  induction readings with
  | nil => simp only [update, if_true]
  | cons r rest ih =>
      obtain ⟨m, r⟩ := r
      by_cases heq : name = m
      · simp only [update, if_pos heq]
      · by_cases hlt : name < m
        · simp only [update, if_neg heq, if_pos hlt, if_true]
        · simp only [update, if_neg heq, if_neg hlt, ih]

theorem count_count (t : Telemetry) (name : String) (k n : Nat) :
    (t.count name k).count name n = t.count name (k + n) := by
  unfold count
  rw [update_update]
  refine congrArg (fun change => { t with readings := update name change t.readings })
    (funext fun r => ?_)
  rcases r with - | m | m
  · rfl
  · exact congrArg Reading.counter (Nat.add_assoc m k n)
  · rfl

end Telemetry

end MetricAgent
