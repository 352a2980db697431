import Mathlib.Data.List.Forall2
import MetricAgent.Proofs.Json.Scalars

/-!
# JSON documents

`document?` reads a text that holds one JSON value. What is written as an object
is read back as one with the same members in the same order, if the values of the
members are read back (`Written.object`).
-/

namespace MetricAgent.Json

inductive Value where
  | scalar (v : Scalar)
  | list (items : List Value)
  | object (members : List (String × Value))

def skip (cs : List Char) : List Char := cs.dropWhile isSpace

def afterSign? (sign : Char) (cs : List Char) : Option (List Char) :=
  match skip cs with
  | c :: rest => if c = sign then some rest else none
  | [] => none

def string? (cs : List Char) : Option (String × List Char) := do
  let rest ← afterSign? '"' cs
  let (xs, rest) ← stringBody? rest.length rest
  return (String.ofList xs, rest)

mutual

/-- Reads a value at the front of a text. The count is of the values, items and
members that may still be read. -/
def value? : Nat → List Char → Option (Value × List Char)
  | 0, _ => none
  | fuel + 1, cs =>
    match skip cs with
    | '\x7b' :: rest =>
      match afterSign? '\x7d' rest with
      | some rest => some (.object [], rest)
      | none => (members? fuel rest).map fun (ms, rest) => (.object ms, rest)
    | '[' :: rest =>
      match afterSign? ']' rest with
      | some rest => some (.list [], rest)
      | none => (items? fuel rest).map fun (vs, rest) => (.list vs, rest)
    | cs => (scalarAt? cs).map fun (v, rest) => (.scalar v, rest)

def items? : Nat → List Char → Option (List Value × List Char)
  | 0, _ => none
  | fuel + 1, cs => do
    let (v, rest) ← value? fuel cs
    match afterSign? ',' rest with
    | some rest =>
      let (vs, rest) ← items? fuel rest
      return (v :: vs, rest)
    | none => return ([v], ← afterSign? ']' rest)

def members? : Nat → List Char → Option (List (String × Value) × List Char)
  | 0, _ => none
  | fuel + 1, cs => do
    let (key, rest) ← string? cs
    let (v, rest) ← value? fuel (← afterSign? ':' rest)
    match afterSign? ',' rest with
    | some rest =>
      let (ms, rest) ← members? fuel rest
      return ((key, v) :: ms, rest)
    | none => return ([(key, v)], ← afterSign? '\x7d' rest)

end

def document? (cs : List Char) : Option Value := do
  let (v, rest) ← value? (cs.length + 1) cs
  if rest.all isSpace then some v else none

variable {cs rest text : List Char} {c : Char}

theorem skip_cons (h : isSpace c = false) (cs : List Char) : skip (c :: cs) = c :: cs :=
  List.dropWhile_cons_of_neg (by rw [h]; decide)

theorem afterSign?_cons (h : isSpace c = false) (cs : List Char) :
    afterSign? c (c :: cs) = some cs := by
  rw [afterSign?, skip_cons h]
  exact if_pos rfl

theorem afterSign?_cons_of_ne {sign : Char} (h : isSpace c = false) (hne : c ≠ sign)
    (cs : List Char) : afterSign? sign (c :: cs) = none := by
  rw [afterSign?, skip_cons h]
  exact if_neg hne

theorem string_append (s : String) (rest : List Char) :
    string s ++ rest = '"' :: (s.toList.flatMap escapeChar ++ '"' :: rest) := by
  simp [string]

theorem string?_string (s : String) (rest : List Char) :
    string? (string s ++ rest) = some (s, rest) := by
  rw [string_append, string?, afterSign?_cons (by decide), Option.bind_eq_bind, Option.bind_some,
    stringBody?_string]
  exact congrArg (fun t => some (t, rest)) String.ofList_toList

theorem scalarAt?_eq_none (hdigit : c.isDigit = false) (hminus : c ≠ '-')
    (hc : c ≠ '"' ∧ c ≠ 'n' ∧ c ≠ 't' ∧ c ≠ 'f') : scalarAt? (c :: cs) = none := by
  have hdigits : (digits (c :: cs)).1 = [] := by simp [digits, hdigit]
  have hplain : (c :: cs).head? ≠ some '-' := fun h => hminus (Option.some.inj h)
  rw [scalarAt?_eq_number? hc, number?_eq_unsignedNumber? hplain, unsignedNumber?]
  simp [hdigits]

/-- A scalar does not begin with white space, and not like a list or an object. -/
theorem exists_of_scalarAt? {p : Scalar × List Char} (h : scalarAt? cs = some p) :
    ∃ c tail, cs = c :: tail ∧ isSpace c = false ∧ c ≠ '\x7b' ∧ c ≠ '[' := by
  cases cs with
  | nil => cases h
  | cons c tail =>
      refine ⟨c, tail, rfl, ?_, ?_, ?_⟩
      · by_contra hspace
        simp only [Bool.not_eq_false, isSpace, Bool.or_eq_true, beq_iff_eq] at hspace
        rcases hspace with ((rfl | rfl) | rfl) | rfl
        all_goals
          rw [scalarAt?_eq_none (by decide) (by decide) (by decide)] at h
          cases h
      · rintro rfl
        rw [scalarAt?_eq_none (by decide) (by decide) (by decide)] at h
        cases h
      · rintro rfl
        rw [scalarAt?_eq_none (by decide) (by decide) (by decide)] at h
        cases h

/-- A text that is read back as a value, whatever closes it. -/
def Written (text : List Char) (v : Value) : Prop :=
  ∀ fuel rest, text.length < fuel → Closes rest → value? fuel (text ++ rest) = some (v, rest)

theorem Written.scalar {v : Scalar}
    (h : ∀ rest, Closes rest → scalarAt? (text ++ rest) = some (v, rest)) :
    Written text (.scalar v) := by
  intro fuel rest hfuel hrest
  obtain ⟨fuel, rfl⟩ := Nat.exists_eq_succ_of_ne_zero (Nat.ne_of_gt (Nat.zero_lt_of_lt hfuel))
  have hscalar := h rest hrest
  obtain ⟨c, tail, htext, hspace, hbrace, hbracket⟩ := exists_of_scalarAt? hscalar
  rw [value?, htext, skip_cons hspace]
  rw [htext] at hscalar
  split
  · next heq =>
    cases heq
    exact absurd rfl hbrace
  · next heq =>
    cases heq
    exact absurd rfl hbracket
  · rw [hscalar]
    rfl

section Objects

def WrittenMember (m : String × List Char) (v : String × Value) : Prop :=
  m.1 = v.1 ∧ Written m.2 v.2

variable {ms : List (String × List Char)} {vs : List (String × Value)}

/-- Reads a member that comes first. -/
theorem members?_cons {k : String} {v : Value} (h : Written text v) {fuel : Nat}
    (hfuel : text.length < fuel) (hrest : Closes rest) :
    members? (fuel + 1) (string k ++ ':' :: text ++ rest) =
      match afterSign? ',' rest with
      | some rest => (members? fuel rest).map fun (ms, rest) => ((k, v) :: ms, rest)
      | none => (afterSign? '\x7d' rest).map fun rest => ([(k, v)], rest) := by
  have hcolon : afterSign? ':' (':' :: (text ++ rest)) = some (text ++ rest) :=
    afterSign?_cons (by decide) _
  rw [List.append_assoc, List.cons_append, members?]
  simp only [string?_string, Option.bind_eq_bind, Option.bind_some, hcolon,
    h fuel rest hfuel hrest]
  split
  · next tail heq => cases members? fuel tail <;> rfl
  · next heq => cases afterSign? '\x7d' rest <;> rfl

theorem members?_members (h : List.Forall₂ WrittenMember ms vs) (hne : ms ≠ []) {fuel : Nat}
    (hfuel : (members ms).length < fuel) (rest : List Char) :
    members? fuel (members ms ++ '\x7d' :: rest) = some (vs, rest) := by
  induction h generalizing fuel with
  | nil => exact absurd rfl hne
  | @cons m v ms vs hm hms ih =>
      obtain ⟨k, text⟩ := m
      obtain ⟨_, value⟩ := v
      obtain ⟨rfl, hwritten : Written text value⟩ := hm
      obtain ⟨fuel, rfl⟩ := Nat.exists_eq_succ_of_ne_zero (Nat.ne_of_gt (Nat.zero_lt_of_lt hfuel))
      cases hms with
      | nil =>
          simp only [members, List.length_append, List.length_cons] at hfuel ⊢
          rw [members?_cons hwritten (by omega) (closes_cons (by decide)),
            afterSign?_cons_of_ne (by decide) (by decide), afterSign?_cons (by decide)]
          rfl
      | @cons m' v' ms vs hm' hms =>
          simp only [members_cons_cons, List.length_append, List.length_cons] at hfuel ⊢
          rw [List.append_assoc, List.cons_append, members?_cons hwritten (by omega)
            (closes_cons (by decide)), afterSign?_cons (by decide)]
          dsimp only
          rw [ih (List.cons_ne_nil _ _) (by omega)]
          rfl

theorem value?_brace (fuel : Nat) (cs : List Char) :
    value? (fuel + 1) ('\x7b' :: cs) =
      match afterSign? '\x7d' cs with
      | some rest => some (.object [], rest)
      | none => (members? fuel cs).map fun (ms, rest) => (.object ms, rest) := by
  rw [value?, skip_cons (by decide)]
  rfl

theorem afterSign?_members (m : String × List Char) (ms : List (String × List Char))
    (rest : List Char) : afterSign? '\x7d' (members (m :: ms) ++ rest) = none := by
  have hquote : ∃ tail, members (m :: ms) ++ rest = '"' :: tail := by
    cases ms with
    | nil => exact ⟨_, rfl⟩
    | cons m' ms => exact ⟨_, rfl⟩
  obtain ⟨tail, htail⟩ := hquote
  rw [htail, afterSign?_cons_of_ne (by decide) (by decide)]

/-- An object is read back if the values of its members are. -/
theorem Written.object (h : List.Forall₂ WrittenMember ms vs) : Written (object ms) (.object vs) := by
  intro fuel rest hfuel hrest
  obtain ⟨fuel, rfl⟩ := Nat.exists_eq_succ_of_ne_zero (Nat.ne_of_gt (Nat.zero_lt_of_lt hfuel))
  simp only [Json.object, List.length_append, List.length_cons] at hfuel
  rw [Json.object, List.append_assoc, List.cons_append, value?_brace, List.singleton_append]
  cases h with
  | nil => rfl
  | cons hm hms =>
      rw [afterSign?_members, members?_members (.cons hm hms) (List.cons_ne_nil _ _) (by omega)]
      rfl

/-- A dictionary is read back if its values are. -/
theorem Written.object_map {α : Type} {pairs : List (String × α)} (written : α → List Char)
    (value : α → Value) (h : ∀ p ∈ pairs, Written (written p.2) (value p.2)) :
    Written (Json.object (pairs.map fun p => (p.1, written p.2)))
      (.object (pairs.map fun p => (p.1, value p.2))) := by
  refine .object ?_
  rw [List.forall₂_map_left_iff, List.forall₂_map_right_iff, List.forall₂_same]
  exact fun p hp => ⟨rfl, h p hp⟩

end Objects

theorem Written.document? {v : Value} (h : Written text v) : document? text = some v := by
  have hread := h (text.length + 1) [] (Nat.lt_succ_self _) closes_nil
  rw [List.append_nil] at hread
  rw [Json.document?, hread]
  rfl

end MetricAgent.Json
