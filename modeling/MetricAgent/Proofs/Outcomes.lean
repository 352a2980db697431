import Mathlib.Data.List.Forall2

/-!
# Computations that may fail

A computation of several steps has a result exactly if each of its steps has
one, and fails exactly if one of them fails. These lemmas take such a computation
apart.

Two computations agree if both fail, with whatever errors, or both have results
that are related (`Agree`). Steps that agree make computations that do.
-/

namespace MetricAgent

variable {ε ε' α β : Type}

/-- Both have results, which are related, or both fail. -/
inductive Agree (R : α → β → Prop) : Except ε α → Except ε' β → Prop
  | ok {a : α} {b : β} : R a b → Agree R (.ok a) (.ok b)
  | error (e : ε) (e' : ε') : Agree R (.error e) (.error e')

theorem bind_eq_ok {x : Except ε α} {f : α → Except ε β} {b : β} :
    x >>= f = .ok b ↔ ∃ a, x = .ok a ∧ f a = .ok b := by
  cases x with
  | error e => exact ⟨nofun, nofun⟩
  | ok a =>
      refine ⟨fun h => ⟨a, rfl, h⟩, ?_⟩
      rintro ⟨a', ha, h⟩
      cases ha
      exact h

theorem then_eq_ok {x : Except ε Unit} {f : Unit → Except ε β} {b : β} :
    x >>= f = .ok b ↔ x = .ok () ∧ f () = .ok b :=
  bind_eq_ok.trans ⟨fun ⟨_, hx, hf⟩ => ⟨hx, hf⟩, fun ⟨hx, hf⟩ => ⟨(), hx, hf⟩⟩

theorem bind_eq_error {x : Except ε α} {f : α → Except ε β} {e : ε} :
    x >>= f = .error e ↔ x = .error e ∨ ∃ a, x = .ok a ∧ f a = .error e := by
  cases x with
  | error e' =>
      refine ⟨fun h => ?_, ?_⟩
      · cases h
        exact .inl rfl
      · rintro (h | ⟨a, ha, -⟩)
        · cases h
          rfl
        · cases ha
  | ok a =>
      refine ⟨fun h => .inr ⟨a, rfl, h⟩, ?_⟩
      rintro (h | ⟨a', ha, h⟩)
      · cases h
      · cases ha
        exact h

theorem mapError_eq_ok {x : Except ε α} {f : ε → ε'} {a : α} :
    x.mapError f = .ok a ↔ x = .ok a := by
  cases x with
  | error e => exact ⟨nofun, nofun⟩
  | ok b =>
      constructor
      · intro h
        cases h
        rfl
      · intro h
        cases h
        rfl

theorem mapError_eq_error {x : Except ε α} {f : ε → ε'} {e' : ε'} :
    x.mapError f = .error e' ↔ ∃ e, x = .error e ∧ f e = e' := by
  cases x with
  | error e =>
      constructor
      · intro h
        cases h
        exact ⟨e, rfl, rfl⟩
      · rintro ⟨_, h, rfl⟩
        cases h
        rfl
  | ok a =>
      refine ⟨nofun, ?_⟩
      rintro ⟨_, h, -⟩
      cases h

theorem forall₂_of_mapM {f : α → Except ε β} {xs : List α} {ys : List β}
    (h : xs.mapM f = .ok ys) : List.Forall₂ (fun x y => x ∈ xs ∧ f x = .ok y) xs ys := by
  refine (List.forall₂_and_left xs ys).2 ⟨fun _ hx => hx, ?_⟩
  induction xs generalizing ys with
  | nil =>
      cases h
      exact .nil
  | cons x xs ih =>
      rw [List.mapM_cons] at h
      obtain ⟨y, hx, h⟩ := bind_eq_ok.1 h
      obtain ⟨ys, hxs, h⟩ := bind_eq_ok.1 h
      cases h
      exact .cons hx (ih hxs)

theorem exists_of_mem_mapM {f : α → Except ε β} {xs : List α} {ys : List β}
    (h : xs.mapM f = .ok ys) {y : β} (hy : y ∈ ys) : ∃ x ∈ xs, f x = .ok y := by
  obtain ⟨hlength, hpairs⟩ := List.forall₂_iff_get.1 (forall₂_of_mapM h)
  obtain ⟨i, hi, rfl⟩ := List.getElem_of_mem hy
  exact ⟨_, hpairs i (hlength ▸ hi) hi⟩

theorem exists_of_mapM_eq_error {f : α → Except ε β} {xs : List α} {e : ε}
    (h : xs.mapM f = .error e) : ∃ x ∈ xs, f x = .error e := by
  induction xs with
  | nil => cases h
  | cons x xs ih =>
      rw [List.mapM_cons] at h
      rcases bind_eq_error.1 h with h | ⟨y, -, h⟩
      · exact ⟨x, List.mem_cons_self, h⟩
      · rcases bind_eq_error.1 h with h | ⟨ys, -, h⟩
        · obtain ⟨x', hx', hfx'⟩ := ih h
          exact ⟨x', List.mem_cons_of_mem _ hx', hfx'⟩
        · cases h

section Agree

variable {γ δ : Type} {R : α → β → Prop} {S : γ → δ → Prop} {x : Except ε α} {y : Except ε' β}

theorem Agree.bind (h : Agree R x y) {f : α → Except ε γ} {g : β → Except ε' δ}
    (hfg : ∀ a b, R a b → Agree S (f a) (g b)) : Agree S (x >>= f) (y >>= g) := by
  cases h with
  | ok hab => exact hfg _ _ hab
  | error e e' => exact .error e e'

theorem agree_bind_self (z : Except ε δ) {f : δ → Except ε α} {g : δ → Except ε β}
    (hfg : ∀ d, z = .ok d → Agree R (f d) (g d)) : Agree R (z >>= f) (z >>= g) := by
  cases z with
  | ok d => exact hfg d rfl
  | error e => exact .error e e

theorem Agree.map (h : Agree R x y) {f : α → γ} {g : β → δ} (hfg : ∀ a b, R a b → S (f a) (g b)) :
    Agree S (x.map f) (y.map g) := by
  cases h with
  | ok hab => exact .ok (hfg _ _ hab)
  | error e e' => exact .error e e'

theorem agree_refl (x : Except ε α) : Agree (· = ·) x x := by
  cases x with
  | ok a => exact .ok rfl
  | error e => exact .error e e

theorem agree_map_self (z : Except ε δ) {f : δ → α} {g : δ → β} (hfg : ∀ d, R (f d) (g d)) :
    Agree R (z.map f) (z.map g) := by
  cases z with
  | ok d => exact .ok (hfg d)
  | error e => exact .error e e

theorem Agree.map_right {z : Except ε' δ} {T : α → δ → Prop} (h : Agree T x z) {g : δ → β}
    (hg : ∀ a d, T a d → R a (g d)) : Agree R x (z.map g) := by
  cases h with
  | ok had => exact .ok (hg _ _ had)
  | error e e' => exact .error e e'

theorem Agree.mapError (h : Agree R x y) {η η' : Type} (f : ε → η) (g : ε' → η') :
    Agree R (x.mapError f) (y.mapError g) := by
  cases h with
  | ok hab => exact .ok hab
  | error e e' => exact .error (f e) (g e')

/-- If one of two computations fails, they agree if both do. -/
theorem agree_iff_of_isOk_false (h : x.isOk = false ∨ y.isOk = false) :
    Agree R x y ↔ x.isOk = false ∧ y.isOk = false := by
  constructor
  · rintro (hab | ⟨e, e'⟩)
    · exact (h.elim nofun nofun : False).elim
    · exact ⟨rfl, rfl⟩
  · rintro ⟨hx, hy⟩
    cases x with
    | ok a => cases hx
    | error e =>
        cases y with
        | ok b => cases hy
        | error e' => exact .error e e'

theorem isOk_bind_eq_false (h : x.isOk = false) (f : α → Except ε γ) : (x >>= f).isOk = false := by
  cases x with
  | ok a => cases h
  | error e => rfl

theorem isOk_mapError (x : Except ε α) (f : ε → ε') : (x.mapError f).isOk = x.isOk := by
  cases x <;> rfl

end Agree

end MetricAgent
