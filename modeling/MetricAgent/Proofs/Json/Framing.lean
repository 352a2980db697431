import MetricAgent.Proofs.Json.Scalars

/-!
# JSON on one line

No text that is written in JSON holds the end of a line, whatever the strings in it
hold: there it is escaped.
-/

namespace MetricAgent

def FloatLayout.IsNumberChar (c : Char) : Prop := c.isDigit = true ∨ c ∈ ['.', 'e', '+', '-']

instance (c : Char) : Decidable (FloatLayout.IsNumberChar c) :=
  inferInstanceAs (Decidable (c.isDigit = true ∨ c ∈ ['.', 'e', '+', '-']))

namespace FloatLayout

theorem isNumberChar_toDigits {n : Nat} : ∀ c ∈ Nat.toDigits 10 n, IsNumberChar c :=
  fun _ hc => .inl (Nat.isDigit_of_mem_toDigits (by decide) (by decide) hc)

theorem isNumberChar_inFull (layout : FloatLayout) {ds : List Char} (hds : ∀ c ∈ ds, IsNumberChar c)
    (scale : Int) : ∀ c ∈ layout.inFull ds scale, IsNumberChar c := by
  have hzero : IsNumberChar '0' := .inl rfl
  have hpoint : IsNumberChar '.' := .inr (by decide)
  unfold inFull
  intro c hc
  split at hc
  · rcases List.mem_append.1 hc with hc | hc
    · rcases List.mem_append.1 hc with hc | hc
      · exact hds c hc
      · exact (List.eq_of_mem_replicate hc) ▸ hzero
    · split at hc
      · simp only [List.mem_cons, List.not_mem_nil, or_false] at hc
        rcases hc with rfl | rfl
        · exact hpoint
        · exact hzero
      · cases hc
  · dsimp only at hc
    split at hc
    · rcases List.mem_append.1 hc with hc | hc
      · exact hds c (List.mem_of_mem_take hc)
      · rcases List.mem_cons.1 hc with rfl | hc
        · exact hpoint
        · exact hds c (List.mem_of_mem_drop hc)
    · simp only [List.cons_append, List.mem_cons, List.mem_append, List.mem_replicate] at hc
      rcases hc with rfl | rfl | ⟨-, rfl⟩ | hc
      · exact hzero
      · exact hpoint
      · exact hzero
      · exact hds c hc

theorem isNumberChar_scaled {ds : List Char} (hds : ∀ c ∈ ds, IsNumberChar c) (k : Int) :
    ∀ c ∈ scaled ds k, IsNumberChar c := by
  have hsign : IsNumberChar (if 0 ≤ k then '+' else '-') := by
    split <;> exact .inr (by decide)
  intro c hc
  unfold scaled at hc
  rcases List.mem_append.1 hc with hc | hc
  · split at hc
    · cases hc
    · exact hds c hc
    · next d rest _ =>
      rcases List.mem_cons.1 hc with rfl | hc
      · exact hds _ List.mem_cons_self
      · rcases List.mem_cons.1 hc with rfl | hc
        · exact .inr (by decide)
        · exact hds c (List.mem_cons_of_mem _ hc)
  · rcases List.mem_cons.1 hc with rfl | hc
    · exact .inr (by decide)
    · rcases List.mem_cons.1 hc with rfl | hc
      · exact hsign
      · exact isNumberChar_toDigits c hc

theorem isNumberChar_finiteText (layout : FloatLayout) (x : Binary64) :
    ∀ c ∈ layout.finiteText x, IsNumberChar c := by
  intro c hc
  unfold finiteText at hc
  have hbody : ∀ k (d : Decimal), ∀ c ∈ (if layout.isPositional k then
      layout.inFull (Nat.toDigits 10 d.digits) d.scale else scaled (Nat.toDigits 10 d.digits) k),
      IsNumberChar c := by
    intro k d c hc
    split at hc
    · exact isNumberChar_inFull layout isNumberChar_toDigits _ c hc
    · exact isNumberChar_scaled isNumberChar_toDigits _ c hc
  dsimp only at hc
  split at hc
  · rcases List.mem_cons.1 hc with rfl | hc
    · exact .inr (by decide)
    · exact hbody _ _ c hc
  · exact hbody _ _ c hc

end FloatLayout

namespace Json

theorem newline_not_mem_control : ∀ n < 32, '\n' ∉ escapeChar (Char.ofNat n) := by decide

theorem newline_not_mem_escapeChar (c : Char) : '\n' ∉ escapeChar c := by
  by_cases hcontrol : c.toNat < 32
  · have hmem := newline_not_mem_control c.toNat hcontrol
    rwa [Char.ofNat_toNat] at hmem
  · have hne : '\n' ≠ c := by
      rintro rfl
      exact hcontrol (by decide)
    unfold escapeChar
    repeat' split
    all_goals first
      | decide
      | exact absurd ‹c.toNat < 32› hcontrol
      | exact fun hmem => hne (List.mem_singleton.1 hmem)

theorem newline_not_mem_string (s : String) : '\n' ∉ string s := by
  have hchars : '\n' ∉ s.toList.flatMap escapeChar := by
    rw [List.mem_flatMap]
    rintro ⟨c, -, hc⟩
    exact newline_not_mem_escapeChar c hc
  simp [string, hchars]

theorem newline_not_isNumberChar : ¬FloatLayout.IsNumberChar '\n' := by decide

theorem newline_not_mem_float (x : Binary64) : '\n' ∉ float x := by
  unfold float
  split
  · exact fun h => newline_not_isNumberChar (FloatLayout.isNumberChar_finiteText _ x _ h)
  · decide

theorem isNumberChar_integer (i : Int) : ∀ c ∈ integer i, FloatLayout.IsNumberChar c := by
  intro c hc
  rcases Int.lt_or_le i 0 with hneg | hnonneg
  · rw [integer_of_neg hneg] at hc
    rcases List.mem_cons.1 hc with rfl | hc
    · exact .inr (by decide)
    · exact FloatLayout.isNumberChar_toDigits c hc
  · rw [integer_of_nonneg hnonneg] at hc
    exact FloatLayout.isNumberChar_toDigits c hc

theorem integer_injective : Function.Injective integer := by
  have hdigits : ∀ {a b : Nat}, Nat.toDigits 10 a = Nat.toDigits 10 b → a = b := by
    intro a b h
    rw [← @Nat.ofDigitChars_ten_toDigits a, h, Nat.ofDigitChars_ten_toDigits]
  have hminus : ∀ {a n : Nat}, '-' :: Nat.toDigits 10 a ≠ Nat.toDigits 10 n := by
    intro a n h
    have hdigit := Nat.isDigit_of_mem_toDigits (by decide) (by decide) (h ▸ List.mem_cons_self)
    exact absurd hdigit (by decide)
  intro i j h
  rcases Int.lt_or_le i 0 with hi | hi <;> rcases Int.lt_or_le j 0 with hj | hj
  · rw [integer_of_neg hi, integer_of_neg hj, List.cons.injEq] at h
    have habs := hdigits h.2
    omega
  · rw [integer_of_neg hi, integer_of_nonneg hj] at h
    exact (hminus h).elim
  · rw [integer_of_nonneg hi, integer_of_neg hj] at h
    exact (hminus h.symm).elim
  · rw [integer_of_nonneg hi, integer_of_nonneg hj] at h
    have habs := hdigits h
    omega

theorem newline_not_mem_integer (i : Int) : '\n' ∉ integer i :=
  fun h => newline_not_isNumberChar (isNumberChar_integer i _ h)

theorem newline_not_mem_bool (b : Bool) : '\n' ∉ bool b := by
  cases b <;> decide

theorem newline_not_mem_members {ms : List (String × List Char)} (h : ∀ m ∈ ms, '\n' ∉ m.2) :
    '\n' ∉ members ms := by
  induction ms with
  | nil => exact List.not_mem_nil
  | cons m ms ih =>
      have hm : '\n' ∉ string m.1 ++ ':' :: m.2 := by
        simp [newline_not_mem_string, h m List.mem_cons_self]
      cases ms with
      | nil => exact hm
      | cons m' ms =>
          have hrest := ih fun m hmem => h m (List.mem_cons_of_mem _ hmem)
          rw [members_cons_cons, List.mem_append, not_or, List.mem_cons, not_or]
          exact ⟨hm, by decide, hrest⟩

theorem newline_not_mem_object {ms : List (String × List Char)} (h : ∀ m ∈ ms, '\n' ∉ m.2) :
    '\n' ∉ object ms := by
  simp [object, newline_not_mem_members h]

end Json

end MetricAgent
