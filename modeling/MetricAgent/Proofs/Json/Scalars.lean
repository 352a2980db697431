import Mathlib.Data.List.TakeWhile
import MetricAgent.Metric.FieldValue

/-!
# JSON scalars read back

What is written as a string, an integer or a truth value is read back as it is, in
front of anything that can stand behind a value. A number is read with two
roundings, so that it may come back as its neighbour. If the text of a number is
read back by itself, then also in front of what closes it, since reading it takes no
notice of what follows (`number?_append`).
-/

namespace MetricAgent.Json

variable {cs rest r : List Char} {v : Scalar} {minus : Bool} {s : Significand}

/-- A text with which a number before it does not go on. -/
def Closes (rest : List Char) : Prop :=
  ∀ c ∈ rest.head?, c.isDigit = false ∧ c ≠ '.' ∧ c ≠ 'e' ∧ c ≠ 'E'

theorem closes_nil : Closes [] := nofun

theorem closes_cons {c : Char} (h : c.isDigit = false ∧ c ≠ '.' ∧ c ≠ 'e' ∧ c ≠ 'E') :
    Closes (c :: rest) := by
  rintro _ ⟨⟩
  exact h

theorem digits_append (hrest : Closes rest) (cs : List Char) :
    digits (cs ++ rest) = ((digits cs).1, (digits cs).2 ++ rest) := by
  unfold digits
  induction cs with
  | nil =>
      cases rest with
      | nil => rfl
      | cons c tail => simp [(hrest c rfl).1]
  | cons c cs ih =>
      cases hc : c.isDigit with
      | true => simpa [hc] using ih
      | false => simp [hc]

theorem exponentSign_append (h : cs ≠ []) (rest : List Char) :
    exponentSign (cs ++ rest) = ((exponentSign cs).1, (exponentSign cs).2 ++ rest) := by
  obtain ⟨c, cs, rfl⟩ := List.exists_cons_of_ne_nil h
  by_cases hplus : c = '+'
  · subst hplus
    rfl
  · by_cases hminus : c = '-'
    · subst hminus
      rfl
    · simp [exponentSign, hplus, hminus]

theorem withExponent?_append (hrest : Closes rest) (h : withExponent? minus s cs = some (v, r)) :
    withExponent? minus s (cs ++ rest) = some (v, r ++ rest) := by
  have hcs : cs ≠ [] := by
    rintro rfl
    cases h
  unfold withExponent? at h ⊢
  simp only [exponentSign_append hcs, digits_append hrest] at h ⊢
  split at h
  · cases h
  · next hdigits =>
    rw [if_neg hdigits]
    split at h
    · next hlarge =>
      rw [if_pos hlarge]
      split at h
      · cases h
      · next hzero =>
        rw [if_neg hzero]
        cases h
        rfl
    · next hsmall =>
      rw [if_neg hsmall]
      obtain ⟨x, hx, hv⟩ := Option.bind_eq_some_iff.1 h
      cases hv
      exact Option.bind_eq_some_iff.2 ⟨x, hx, rfl⟩

theorem numberEnd?_append {plain : Option Scalar} (hrest : Closes rest)
    (h : numberEnd? minus s plain cs = some (v, r)) :
    numberEnd? minus s plain (cs ++ rest) = some (v, r ++ rest) := by
  cases cs with
  | nil =>
      obtain ⟨x, hx, hv⟩ := Option.map_eq_some_iff.1 h
      cases hv
      cases rest with
      | nil => exact h
      | cons c tail =>
          have hc := hrest c rfl
          exact (if_neg (not_or.2 ⟨hc.2.2.1, hc.2.2.2⟩)).trans
            (Option.map_eq_some_iff.2 ⟨_, hx, rfl⟩)
  | cons c cs =>
      by_cases hexp : c = 'e' ∨ c = 'E'
      · rw [numberEnd?, if_pos hexp] at h
        rw [List.cons_append, numberEnd?, if_pos hexp]
        exact withExponent?_append hrest h
      · rw [numberEnd?, if_neg hexp] at h
        rw [List.cons_append, numberEnd?, if_neg hexp]
        obtain ⟨x, hx, hv⟩ := Option.map_eq_some_iff.1 h
        cases hv
        exact Option.map_eq_some_iff.2 ⟨_, hx, rfl⟩

theorem afterWhole?_of_ne (h : cs.head? ≠ some '.') :
    afterWhole? minus s cs = numberEnd? minus s (integer? minus s) cs := by
  unfold afterWhole?
  split
  · exact absurd rfl h
  · rfl

theorem afterWhole?_append (hrest : Closes rest) (h : afterWhole? minus s cs = some (v, r)) :
    afterWhole? minus s (cs ++ rest) = some (v, r ++ rest) := by
  by_cases hpoint : cs.head? = some '.'
  · obtain ⟨tail, rfl⟩ := List.head?_eq_some_iff.1 hpoint
    simp only [List.cons_append, afterWhole?, digits_append hrest] at h ⊢
    split at h
    · cases h
    · next hdigits =>
      rw [if_neg hdigits]
      exact numberEnd?_append hrest h
  · have hplain : (cs ++ rest).head? ≠ some '.' := by
      cases cs with
      | nil => exact fun h => (hrest '.' h).2.1 rfl
      | cons c cs => exact hpoint
    rw [afterWhole?_of_ne hpoint] at h
    rw [afterWhole?_of_ne hplain]
    exact numberEnd?_append hrest h

theorem unsignedNumber?_append (hrest : Closes rest)
    (h : unsignedNumber? minus cs = some (v, r)) :
    unsignedNumber? minus (cs ++ rest) = some (v, r ++ rest) := by
  simp only [unsignedNumber?, digits_append hrest] at h ⊢
  split at h
  · cases h
  · next hdigits =>
    rw [if_neg hdigits]
    exact afterWhole?_append hrest h

theorem number?_eq_unsignedNumber? (h : cs.head? ≠ some '-') :
    number? cs = unsignedNumber? false cs := by
  unfold number?
  split
  · exact absurd rfl h
  · rfl

theorem number?_append (hrest : Closes rest) (h : number? cs = some (v, r)) :
    number? (cs ++ rest) = some (v, r ++ rest) := by
  cases cs with
  | nil => cases h
  | cons c cs =>
      by_cases hminus : c = '-'
      · subst hminus
        exact unsignedNumber?_append hrest h
      · have hplain : ∀ cs, (c :: cs).head? ≠ some '-' := fun _ h => hminus (Option.some.inj h)
        rw [number?_eq_unsignedNumber? (hplain cs)] at h
        rw [List.cons_append, number?_eq_unsignedNumber? (hplain _)]
        exact unsignedNumber?_append hrest h

/-- A number that is read back from the text that is written for it. -/
def ReadsBack (x : Binary64) : Prop := scalarAt? (float x) = some (.float x, [])

instance (x : Binary64) : Decidable (ReadsBack x) := inferInstanceAs (Decidable (_ = _))

theorem scalarAt?_eq_number? {c : Char} (h : c ≠ '"' ∧ c ≠ 'n' ∧ c ≠ 't' ∧ c ≠ 'f') :
    scalarAt? (c :: cs) = number? (c :: cs) := by
  obtain ⟨hquote, hn, ht, hf⟩ := h
  simp [scalarAt?, hquote, hn, ht, hf]

/-- Only what is written like a number is read as one. -/
theorem number?_of_scalarAt? {x : Binary64} (h : scalarAt? cs = some (.float x, r)) :
    ∃ c tail, cs = c :: tail ∧ (c ≠ '"' ∧ c ≠ 'n' ∧ c ≠ 't' ∧ c ≠ 'f') ∧
      number? cs = some (.float x, r) := by
  unfold scalarAt? at h
  split at h
  · obtain ⟨p, -, hp⟩ := Option.map_eq_some_iff.1 h
    cases hp
  · obtain ⟨p, -, hp⟩ := Option.map_eq_some_iff.1 h
    cases hp
  · obtain ⟨p, -, hp⟩ := Option.map_eq_some_iff.1 h
    cases hp
  · obtain ⟨p, -, hp⟩ := Option.map_eq_some_iff.1 h
    cases hp
  · next hquote hn ht hf =>
    cases cs with
    | nil => cases h
    | cons c tail =>
        refine ⟨c, tail, rfl, ⟨?_, ?_, ?_, ?_⟩, h⟩
        · exact fun hc => hquote tail (congrArg (· :: tail) hc)
        · exact fun hc => hn tail (congrArg (· :: tail) hc)
        · exact fun hc => ht tail (congrArg (· :: tail) hc)
        · exact fun hc => hf tail (congrArg (· :: tail) hc)

/-- A number that is read back is so in front of what closes it. -/
theorem ReadsBack.scalarAt?_append {x : Binary64} (h : ReadsBack x) (hrest : Closes rest) :
    scalarAt? (float x ++ rest) = some (.float x, rest) := by
  obtain ⟨c, tail, hfloat, hc, hnumber⟩ := number?_of_scalarAt? h
  have happend := number?_append hrest hnumber
  rw [hfloat, List.cons_append] at happend ⊢
  rw [scalarAt?_eq_number? hc, happend, List.nil_append]

section Integers

variable {n : Nat}

def digitValue (c : Char) : Nat := c.toNat - '0'.toNat

theorem digits_toDigits (hrest : Closes rest) (n : Nat) :
    digits (Nat.toDigits 10 n ++ rest) = ((Nat.toDigits 10 n).map digitValue, rest) := by
  have hdigits : ∀ c ∈ Nat.toDigits 10 n, c.isDigit = true :=
    fun c => Nat.isDigit_of_mem_toDigits (by decide) (by decide)
  rw [digits_append hrest, digits, List.takeWhile_eq_self_iff.2 hdigits,
    List.dropWhile_eq_nil_iff.2 hdigits]
  rfl

theorem le_ofDigitChars (cs : List Char) (n : Nat) : n ≤ Nat.ofDigitChars 10 cs n := by
  induction cs generalizing n with
  | nil => exact le_rfl
  | cons c cs ih =>
      calc n ≤ 10 * n + digitValue c := by omega
        _ ≤ Nat.ofDigitChars 10 (c :: cs) n := ih _

/-- Digits whose number fits into a word are all taken in. -/
theorem foldl_wholeDigit (cs : List Char) (n : Nat)
    (h : Nat.ofDigitChars 10 cs n < UInt64.size) :
    (cs.map digitValue).foldl Significand.wholeDigit ⟨n, 0, false⟩ =
      ⟨Nat.ofDigitChars 10 cs n, 0, false⟩ := by
  induction cs generalizing n with
  | nil => rfl
  | cons c cs ih =>
      have hnext : Nat.ofDigitChars 10 cs (n * 10 + digitValue c) < UInt64.size := by
        rw [Nat.mul_comm]
        exact h
      have hfits : n * 10 + digitValue c < UInt64.size := (le_ofDigitChars cs _).trans_lt hnext
      have hstep : Significand.wholeDigit ⟨n, 0, false⟩ (digitValue c) =
          ⟨n * 10 + digitValue c, 0, false⟩ := by
        simp [Significand.wholeDigit, hfits]
      rw [List.map_cons, List.foldl_cons, hstep, ih _ hnext, Nat.mul_comm]
      rfl

theorem head?_toDigits_ne_of_lt : ∀ n < 10, 0 < n →
    ((Nat.toDigits 10 n).map digitValue).head? ≠ some 0 := by decide

/-- The first digit of a number is zero only if it is the only one. -/
theorem head?_toDigits_ne (hn : 0 < n) :
    ((Nat.toDigits 10 n).map digitValue).head? ≠ some 0 := by
  induction n using Nat.strongRecOn with
  | ind n ih =>
    by_cases hlt : n < 10
    · exact head?_toDigits_ne_of_lt n hlt hn
    · have hle := Nat.not_lt.1 hlt
      have hshorter := ih (n / 10) (Nat.div_lt_self hn (by decide)) (Nat.div_pos hle (by decide))
      rw [Nat.toDigits_of_base_le (by decide) hle, List.map_append, List.head?_append]
      cases hhead : ((Nat.toDigits 10 (n / 10)).map digitValue).head? with
      | none => exact absurd (List.map_eq_nil_iff.1 (List.head?_eq_none_iff.1 hhead)) Nat.toDigits_ne_nil
      | some d => exact fun h => hshorter (hhead.trans h)

theorem unsignedNumber?_toDigits (hrest : Closes rest) (hn : n < UInt64.size) (minus : Bool) :
    unsignedNumber? minus (Nat.toDigits 10 n ++ rest) =
      (integer? minus ⟨n, 0, false⟩).map fun v => (v, rest) := by
  have hwhole : ¬(((Nat.toDigits 10 n).map digitValue).isEmpty = true ∨
      ((Nat.toDigits 10 n).map digitValue).head? = some 0 ∧
        ((Nat.toDigits 10 n).map digitValue).length ≠ 1) := by
    rintro (hempty | ⟨hhead, hlength⟩)
    · exact Nat.toDigits_ne_nil (List.map_eq_nil_iff.1 (List.isEmpty_iff.1 hempty))
    · rcases Nat.eq_zero_or_pos n with rfl | hpos
      · exact hlength rfl
      · exact head?_toDigits_ne hpos hhead
  have hvalue : Nat.ofDigitChars 10 (Nat.toDigits 10 n) 0 = n :=
    Nat.ofDigitChars_toDigits (by decide) (by decide)
  have hpoint : rest.head? ≠ some '.' := fun h => (hrest '.' h).2.1 rfl
  simp only [unsignedNumber?, digits_toDigits hrest]
  rw [if_neg hwhole, foldl_wholeDigit _ _ (hvalue.symm ▸ hn), hvalue, afterWhole?_of_ne hpoint]
  cases rest with
  | nil => rfl
  | cons c tail =>
      have hc := hrest c rfl
      exact if_neg (not_or.2 ⟨hc.2.2.1, hc.2.2.2⟩)

def Scalar.ofInt (n : Int) : Scalar := if n < 0 then .negative n else .natural n.toNat

theorem integer?_negative (h : ¬(n = 0 ∨ 0x8000000000000000 < n)) :
    integer? true ⟨n, 0, false⟩ = some (.negative (-n)) := by
  change (if n = 0 ∨ 0x8000000000000000 < n then _ else _) = _
  rw [if_neg h]

theorem integer_of_nonneg {i : Int} (h : 0 ≤ i) : integer i = Nat.toDigits 10 i.toNat := by
  rw [integer, Int.toString_eq_repr, Int.repr_eq_if, if_pos h, Nat.toList_repr]

theorem integer_of_neg {i : Int} (h : i < 0) : integer i = '-' :: Nat.toDigits 10 i.natAbs := by
  have habs : (-i).toNat = i.natAbs := by omega
  rw [integer, Int.toString_eq_repr, Int.repr_eq_if, if_neg (Int.not_le.2 h), String.toList_append,
    Nat.toList_repr, habs]
  rfl

theorem scalarAt?_integer (hrest : Closes rest) {i : Int}
    (hlow : -0x8000000000000000 ≤ i) (hhigh : i < 0x10000000000000000) :
    scalarAt? (integer i ++ rest) = some (Scalar.ofInt i, rest) := by
  by_cases hneg : i < 0
  · have hsize : i.natAbs < UInt64.size := by
      simp only [UInt64.size]
      omega
    have hfits : ¬(i.natAbs = 0 ∨ 0x8000000000000000 < i.natAbs) := by omega
    have habs : -(i.natAbs : Int) = i := by omega
    rw [integer_of_neg hneg, List.cons_append, scalarAt?_eq_number? (by decide), number?,
      unsignedNumber?_toDigits hrest hsize, Scalar.ofInt, if_pos hneg]
    rw [integer?_negative hfits, habs]
    rfl
  · have hsize : i.toNat < UInt64.size := by
      simp only [UInt64.size]
      omega
    obtain ⟨c, tail, hdigits⟩ := List.exists_cons_of_ne_nil (Nat.toDigits_ne_nil (n := i.toNat) (b := 10))
    have hc : c.isDigit = true :=
      Nat.isDigit_of_mem_toDigits (by decide) (by decide) (hdigits ▸ List.mem_cons_self)
    have hother : (c ≠ '"' ∧ c ≠ 'n' ∧ c ≠ 't' ∧ c ≠ 'f') ∧ c ≠ '-' := by
      refine ⟨⟨?_, ?_, ?_, ?_⟩, ?_⟩
      all_goals
        rintro rfl
        cases hc
    have hplain : (c :: (tail ++ rest)).head? ≠ some '-' := fun h => hother.2 (Option.some.inj h)
    rw [integer_of_nonneg (Int.not_lt.1 hneg), hdigits, List.cons_append,
      scalarAt?_eq_number? hother.1, number?_eq_unsignedNumber? hplain, ← List.cons_append, ← hdigits,
      unsignedNumber?_toDigits hrest hsize, Scalar.ofInt, if_neg hneg]
    rfl

end Integers

section Strings

variable {c x : Char} (fuel : Nat)

theorem stringBody?_plain (hquote : c ≠ '"') (hslash : c ≠ '\\') (hcontrol : ¬c.toNat < 32) :
    stringBody? (fuel + 1) (c :: cs) = (stringBody? fuel cs).map fun p => (c :: p.1, p.2) := by
  rw [stringBody?.eq_def]
  dsimp only
  rw [if_neg hquote, if_neg hslash, if_neg hcontrol]
  cases stringBody? fuel cs <;> rfl

theorem stringBody?_short (hu : c ≠ 'u') (h : shortEscape? c = some x) :
    stringBody? (fuel + 1) ('\\' :: c :: cs) =
      (stringBody? fuel cs).map fun p => (x :: p.1, p.2) := by
  rw [stringBody?.eq_def]
  dsimp only
  rw [if_neg (by decide), if_pos rfl]
  split
  · next heq => cases heq
  · next heq =>
    cases heq
    exact absurd rfl hu
  · next heq =>
    cases heq
    rw [h]
    cases stringBody? fuel cs <;> rfl

theorem stringBody?_unicode (cs : List Char) {a b c d : Char} {n : Nat}
    (h : Text.ofDigits? 16 [a, b, c, d] = some n)
    (hn : n < 0xD800) : stringBody? (fuel + 1) ('\\' :: 'u' :: a :: b :: c :: d :: cs) =
      (stringBody? fuel cs).map fun p => (Char.ofNat n :: p.1, p.2) := by
  have hescape : unicodeEscape? (a :: b :: c :: d :: cs) = some (Char.ofNat n, cs) := by
    simp [unicodeEscape?, hex4?, h, hn]
  rw [stringBody?.eq_def]
  dsimp only
  rw [if_neg (by decide), if_pos rfl]
  simp only [hescape, Option.bind_eq_bind, Option.bind_some]
  cases stringBody? fuel cs <;> rfl

theorem hexDigits_control : ∀ n < 32,
    Text.ofDigits? 16 ['0', '0', hexDigit (n / 16), hexDigit (n % 16)] = some n := by decide

theorem stringBody?_escapeChar (c : Char) (cs : List Char) :
    stringBody? (fuel + 1) (escapeChar c ++ cs) =
      (stringBody? fuel cs).map fun p => (c :: p.1, p.2) := by
  unfold escapeChar
  split
  · next h =>
    subst h
    exact stringBody?_short fuel (by decide) rfl
  split
  · next h =>
    subst h
    exact stringBody?_short fuel (by decide) rfl
  split
  · next h =>
    obtain rfl : c = Char.ofNat 8 := Char.toNat_inj.1 h
    exact stringBody?_short fuel (by decide) rfl
  split
  · next h =>
    subst h
    exact stringBody?_short fuel (by decide) rfl
  split
  · next h =>
    subst h
    exact stringBody?_short fuel (by decide) rfl
  split
  · next h =>
    obtain rfl : c = Char.ofNat 12 := Char.toNat_inj.1 h
    exact stringBody?_short fuel (by decide) rfl
  split
  · next h =>
    subst h
    exact stringBody?_short fuel (by decide) rfl
  split
  · next h =>
    have hunicode := stringBody?_unicode fuel cs (hexDigits_control c.toNat h) (by omega)
    rwa [Char.ofNat_toNat] at hunicode
  · next hquote hslash _ _ _ _ _ hcontrol => exact stringBody?_plain fuel hquote hslash hcontrol

theorem stringBody?_escaped (cs rest : List Char) {fuel : Nat} (h : cs.length < fuel) :
    stringBody? fuel (cs.flatMap escapeChar ++ '"' :: rest) = some (cs, rest) := by
  induction cs generalizing fuel with
  | nil =>
      obtain ⟨fuel, rfl⟩ := Nat.exists_eq_succ_of_ne_zero (Nat.ne_of_gt h)
      rfl
  | cons c cs ih =>
      obtain ⟨fuel, rfl⟩ := Nat.exists_eq_succ_of_ne_zero (Nat.ne_of_gt (Nat.zero_lt_of_lt h))
      rw [List.flatMap_cons, List.append_assoc, stringBody?_escapeChar,
        ih (Nat.lt_of_succ_lt_succ h)]
      rfl

theorem escapeChar_ne_nil (c : Char) : escapeChar c ≠ [] := by
  unfold escapeChar
  repeat' split
  all_goals exact List.cons_ne_nil _ _

theorem length_le_flatMap_escapeChar (cs : List Char) :
    cs.length ≤ (cs.flatMap escapeChar).length := by
  induction cs with
  | nil => exact le_rfl
  | cons c cs ih =>
      rw [List.flatMap_cons, List.length_append, List.length_cons, Nat.add_comm]
      exact Nat.add_le_add (List.length_pos_iff.2 (escapeChar_ne_nil c)) ih

/-- A string is read back, whatever its characters are. -/
theorem stringBody?_string (s : String) (rest : List Char) :
    stringBody? (s.toList.flatMap escapeChar ++ '"' :: rest).length
      (s.toList.flatMap escapeChar ++ '"' :: rest) = some (s.toList, rest) := by
  refine stringBody?_escaped _ _ ?_
  have hle := length_le_flatMap_escapeChar s.toList
  rw [List.length_append, List.length_cons]
  omega

theorem scalarAt?_string (s : String) (rest : List Char) :
    scalarAt? (string s ++ rest) = some (.text s, rest) := by
  have hbody : string s ++ rest = '"' :: (s.toList.flatMap escapeChar ++ '"' :: rest) := by
    simp [string]
  rw [hbody, scalarAt?, stringBody?_string]
  exact congrArg (fun t => some (Scalar.text t, rest)) String.ofList_toList

end Strings

theorem scalarAt?_bool (b : Bool) (rest : List Char) :
    scalarAt? (bool b ++ rest) = some (.bool b, rest) := by
  cases b <;> rfl

end MetricAgent.Json
