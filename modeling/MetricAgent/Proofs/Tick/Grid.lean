import MetricAgent.Tick.Schedule
import Mathlib.Order.Bounds.Basic

/-!
# Ticks on a grid

The base of a tick is computed by a division, which a second rule overrides
when the clock has been set back. Both together are one choice: the least
point of the grid that is after the present and after the base before it
(`Grid.isLeast_base`). So the bases of a whole history are determined by the
times of its calls (`Grid.Bases`), and jitter only moves the deadlines.

All of this is about natural numbers. A schedule computes with durations, and
agrees for as long as the deadlines are in range (`Grid.Bases.run?_eq`).
-/

namespace MetricAgent

/-- A grid of points in time, in nanoseconds. -/
structure Grid where
  anchor : Nat
  interval : Nat
  interval_pos : 0 < interval

namespace Grid

variable {g : Grid} {last : Option Nat}

/-- Whole intervals after the anchor, and at least one. -/
instance : Membership Nat Grid := ⟨fun g p => ∃ k, 1 ≤ k ∧ p = g.anchor + k * g.interval⟩

/-- The points that may be the base of a tick: they are after the present and
after the base before it, if there is one. -/
def candidates (g : Grid) (now : Nat) (last : Option Nat) : Set Nat :=
  {p | p ∈ g ∧ now < p ∧ ∀ l ∈ last, l < p}

/-- The bases of a history of calls, each with the time of the clock and the
jitter, after the base before them, if there is one. -/
inductive Bases (g : Grid) : Option Nat → List (Duration × Duration) → List Nat → Prop
  | nil (last : Option Nat) : Bases g last [] []
  | cons {last : Option Nat} {now jitter : Duration} {base : Nat}
      {calls : List (Duration × Duration)} {bases : List Nat}
      (least : IsLeast (g.candidates now.nanos last) base)
      (rest : Bases g (some base) calls bases) :
      Bases g last ((now, jitter) :: calls) (base :: bases)

/-! ### The least point -/

def firstAfter (g : Grid) (now : Nat) : Nat :=
  g.anchor + ((now - g.anchor) / g.interval + 1) * g.interval

def base (g : Grid) (now : Nat) : Option Nat → Nat
  | none => g.firstAfter now
  | some last => if g.firstAfter now ≤ last then last + g.interval else g.firstAfter now

theorem base_some (now last : Nat) : g.base now (some last) =
    if g.firstAfter now ≤ last then last + g.interval else g.firstAfter now := rfl

theorem firstAfter_le_base (now : Nat) (last : Option Nat) :
    g.firstAfter now ≤ g.base now last := by
  cases last with
  | none => exact Nat.le_refl _
  | some l =>
      rw [base_some]
      split <;> omega

/-- Two points are a whole interval apart. -/
theorem add_interval_le {p q : Nat} (hp : p ∈ g) (hq : q ∈ g) (h : p < q) :
    p + g.interval ≤ q := by
  obtain ⟨k, -, rfl⟩ := hp
  obtain ⟨l, -, rfl⟩ := hq
  have hlt : k < l := Nat.lt_of_mul_lt_mul_right (Nat.lt_of_add_lt_add_left h)
  calc g.anchor + k * g.interval + g.interval
      = g.anchor + (k + 1) * g.interval := by rw [Nat.add_mul, Nat.one_mul, Nat.add_assoc]
    _ ≤ g.anchor + l * g.interval := Nat.add_le_add_left (Nat.mul_le_mul_right _ hlt) _

theorem add_interval_mem {p : Nat} (hp : p ∈ g) : p + g.interval ∈ g := by
  obtain ⟨k, -, rfl⟩ := hp
  exact ⟨k + 1, Nat.le_add_left 1 k, by rw [Nat.add_mul, Nat.one_mul, Nat.add_assoc]⟩

theorem isLeast_firstAfter (g : Grid) (now : Nat) :
    IsLeast {p | p ∈ g ∧ now < p} (g.firstAfter now) := by
  have hdiv := Nat.div_add_mod (now - g.anchor) g.interval
  have hmod := Nat.mod_lt (now - g.anchor) g.interval_pos
  refine ⟨⟨⟨_, Nat.le_add_left 1 _, rfl⟩, ?_⟩, ?_⟩
  · unfold firstAfter
    rw [Nat.add_mul, Nat.one_mul, Nat.mul_comm _ g.interval]
    omega
  · rintro p ⟨⟨k, hk, rfl⟩, hnow⟩
    -- The quotient counts the intervals that have passed, so it is less than `k`.
    refine Nat.add_le_add_left (Nat.mul_le_mul_right _ (Nat.succ_le_of_lt ?_)) _
    rw [Nat.div_lt_iff_lt_mul g.interval_pos]
    have hpos : g.interval ≤ k * g.interval := Nat.le_mul_of_pos_left _ hk
    have hinterval := g.interval_pos
    omega

/-- The division and the rule for a clock that has been set back, as one. -/
theorem isLeast_base (now : Nat) (hlast : ∀ l ∈ last, l ∈ g) :
    IsLeast (g.candidates now last) (g.base now last) := by
  obtain ⟨⟨hgrid, hnow⟩, hleast⟩ := g.isLeast_firstAfter now
  cases last with
  | none => exact ⟨⟨hgrid, hnow, nofun⟩, fun p hp => hleast ⟨hp.1, hp.2.1⟩⟩
  | some l =>
      have hl : l ∈ g := hlast l rfl
      have hinterval := g.interval_pos
      rw [base_some]
      split
      · next hle =>
        refine ⟨⟨add_interval_mem hl, by omega, ?_⟩, fun p hp => ?_⟩
        · rintro _ ⟨⟩
          omega
        · exact add_interval_le hl hp.1 (hp.2.2 l rfl)
      · next hlt =>
        refine ⟨⟨hgrid, hnow, ?_⟩, fun p hp => hleast ⟨hp.1, hp.2.1⟩⟩
        rintro _ ⟨⟩
        exact Nat.not_le.1 hlt

theorem base_mem (now : Nat) (hlast : ∀ l ∈ last, l ∈ g) :
    ∀ l ∈ some (g.base now last), l ∈ g := by
  rintro _ ⟨⟩
  exact (isLeast_base now hlast).1.1

theorem isLeast_of_base_eq {now b : Nat} (hlast : ∀ l ∈ last, l ∈ g) (h : g.base now last = b) :
    IsLeast (g.candidates now last) b :=
  h ▸ isLeast_base now hlast

end Grid

namespace Schedule

variable {s : Schedule} {g : Grid}

def run? (s : Schedule) : List (Duration × Duration) → Option (List Duration)
  | [] => some []
  | (now, jitter) :: calls => do
    let (s, deadline) ← s.next? now jitter
    let deadlines ← s.run? calls
    return deadline :: deadlines

/-- The schedule ticks on a grid, and its last base was a point of it. -/
structure On (s : Schedule) (g : Grid) (last : Option Nat) : Prop where
  anchor : s.anchor.nanos = g.anchor
  interval : s.interval.nanos = g.interval
  lastBase : s.lastBase.map Duration.nanos = last
  last_mem : ∀ l ∈ last, l ∈ g

variable {last : Option Nat} {now jitter : Duration}

theorem On.exists_gridPoint? (h : s.On g last) (hfits : g.firstAfter now.nanos < Duration.limit) :
    ∃ d, s.gridPoint? now = some d ∧ d.nanos = g.firstAfter now.nanos := by
  refine ⟨⟨_, hfits⟩, ?_, rfl⟩
  unfold gridPoint?
  rw [Duration.add?_eq_some_iff, Duration.nanos_ofNanos, Duration.nanos_sub, h.anchor, h.interval]
  · rfl
  · rw [Duration.nanos_sub, h.anchor, h.interval]
    exact Nat.lt_of_le_of_lt (Nat.le_add_left _ _) hfits

theorem On.exists_nextBase? (h : s.On g last) (hfits : g.base now.nanos last < Duration.limit) :
    ∃ d, s.nextBase? now = some d ∧ d.nanos = g.base now.nanos last := by
  obtain ⟨first, hgrid, hfirst⟩ :=
    h.exists_gridPoint? (Nat.lt_of_le_of_lt (Grid.firstAfter_le_base now.nanos last) hfits)
  have hlast := h.lastBase
  unfold nextBase?
  rw [hgrid]
  cases hbase : s.lastBase with
  | none =>
      rw [hbase] at hlast
      subst hlast
      exact ⟨first, rfl, hfirst⟩
  | some l =>
      rw [hbase] at hlast
      subst hlast
      change ∃ d, (if first.nanos ≤ l.nanos then l.add? s.interval else some first) = some d ∧ _
      rw [Option.map_some, Grid.base_some, ← hfirst] at hfits ⊢
      split
      · next hle =>
        rw [if_pos hle, ← h.interval] at hfits
        exact ⟨⟨_, hfits⟩, Duration.add?_eq_some_iff.2 rfl, congrArg _ h.interval⟩
      · exact ⟨first, rfl, rfl⟩

/-- The deadline is the base and its jitter, as long as it is in range. -/
theorem On.exists_next? (h : s.On g last)
    (hfits : g.base now.nanos last + jitter.nanos < Duration.limit) :
    ∃ t d, s.next? now jitter = some (t, d) ∧ t.On g (some (g.base now.nanos last)) ∧
      d.nanos = g.base now.nanos last + jitter.nanos := by
  obtain ⟨b, hnext, hb⟩ := h.exists_nextBase? (Nat.lt_of_le_of_lt (Nat.le_add_right _ _) hfits)
  refine ⟨{ s with lastBase := some b }, ⟨_, hfits⟩, ?_, ?_, rfl⟩
  · have hadd : b.add? jitter = some ⟨_, hfits⟩ := Duration.add?_eq_some_iff.2 (by rw [hb])
    unfold next?
    rw [hnext]
    simp [hadd]
  · exact ⟨h.anchor, h.interval, congrArg some hb, Grid.base_mem now.nanos h.last_mem⟩

end Schedule

namespace Grid.Bases

variable {g : Grid} {last : Option Nat} {calls : List (Duration × Duration)} {bases : List Nat}

/-- The rest of the bases follows a point of the grid. -/
theorem cons_of_base_eq {now jitter : Duration} {base : Nat} (hlast : ∀ l ∈ last, l ∈ g)
    (hbase : g.base now.nanos last = base)
    (hrest : (∀ l ∈ some base, l ∈ g) → g.Bases (some base) calls bases) :
    g.Bases last ((now, jitter) :: calls) (base :: bases) := by
  subst hbase
  exact .cons (isLeast_base now.nanos hlast) (hrest (base_mem now.nanos hlast))

/-- Every history has its bases, in range or not. -/
theorem exists_bases (calls : List (Duration × Duration)) (hlast : ∀ l ∈ last, l ∈ g) :
    ∃ bases, g.Bases last calls bases := by
  induction calls generalizing last with
  | nil => exact ⟨[], .nil last⟩
  | cons call calls ih =>
      obtain ⟨now, jitter⟩ := call
      obtain ⟨bases, hrest⟩ := ih (base_mem now.nanos hlast)
      exact ⟨_, .cons (isLeast_base now.nanos hlast) hrest⟩

theorem unique (h : g.Bases last calls bases) {others : List Nat}
    (hothers : g.Bases last calls others) : others = bases := by
  induction h generalizing others with
  | nil last =>
      cases hothers
      rfl
  | cons least rest ih =>
      cases hothers with
      | cons least' rest' =>
          obtain rfl := least.unique least'
          rw [ih rest']

theorem mem_grid (h : g.Bases last calls bases) : ∀ b ∈ bases, b ∈ g := by
  induction h with
  | nil last => exact nofun
  | cons least rest ih => exact List.forall_mem_cons.2 ⟨least.1.1, ih⟩

theorem last_lt (h : g.Bases last calls bases) : ∀ l ∈ last, ∀ b ∈ bases, l < b := by
  induction h with
  | nil last => exact fun l _ => nofun
  | cons least rest ih =>
      intro l hl
      have hbase := least.1.2.2 l hl
      exact List.forall_mem_cons.2 ⟨hbase, fun b hb => Nat.lt_trans hbase (ih _ rfl b hb)⟩

theorem increasing (h : g.Bases last calls bases) : bases.Pairwise (· < ·) := by
  induction h with
  | nil last => exact .nil
  | cons least rest ih => exact .cons (rest.last_lt _ rfl) ih

/-- A base that has been reached when the next call comes is no constraint. -/
theorem isLeast_of_reached (h : g.Bases last calls bases)
    (hlast : ∀ l ∈ last, ∀ c ∈ calls.head?, l ≤ c.1.nanos)
    (hreached : ∀ p ∈ bases.zip calls.tail, p.1 ≤ p.2.1.nanos) :
    ∀ p ∈ bases.zip calls, IsLeast {q | q ∈ g ∧ p.2.1.nanos < q} p.1 := by
  induction h with
  | nil last => exact nofun
  | @cons last now jitter base calls bases least rest ih =>
      have hfirst : IsLeast {q | q ∈ g ∧ now.nanos < q} base := by
        refine ⟨⟨least.1.1, least.1.2.1⟩, fun q hq => least.2 ⟨hq.1, hq.2, fun l hl => ?_⟩⟩
        exact Nat.lt_of_le_of_lt (hlast l hl _ rfl) hq.2
      refine List.forall_mem_cons.2 ⟨hfirst, ih ?_ ?_⟩
      · rintro _ ⟨⟩ c hc
        obtain ⟨calls, rfl⟩ := List.head?_eq_some_iff.1 hc
        exact hreached (base, c) List.mem_cons_self
      · cases calls with
        | nil => simp
        | cons c calls => exact fun p hp => hreached p (List.mem_cons_of_mem _ hp)

/-- What a schedule answers, as long as the deadlines are in range. -/
theorem run?_eq (h : g.Bases last calls bases) {s : Schedule} (hs : s.On g last)
    (hfits : ∀ p ∈ bases.zip calls, p.1 + p.2.2.nanos < Duration.limit) :
    ∃ deadlines, s.run? calls = some deadlines ∧
      deadlines.map Duration.nanos = (bases.zip calls).map fun p => p.1 + p.2.2.nanos := by
  induction h generalizing s with
  | nil last => exact ⟨[], rfl, rfl⟩
  | @cons last now jitter base calls bases least rest ih =>
      obtain rfl := least.unique (isLeast_base now.nanos hs.last_mem)
      obtain ⟨hfirst, hfits⟩ := List.forall_mem_cons.1 hfits
      obtain ⟨t, d, hnext, ht, hd⟩ := hs.exists_next? hfirst
      obtain ⟨deadlines, hrun, hmap⟩ := ih ht hfits
      refine ⟨d :: deadlines, ?_, ?_⟩
      · simp [Schedule.run?, hnext, hrun]
      · rw [List.map_cons, List.zip_cons_cons, List.map_cons, hd, hmap]

end Grid.Bases

namespace Schedule

/-- A schedule of any interval, aligned or not, and any history of calls, on
a clock that may jump either way. Each base is the least point of the grid that
is after the time of its call and after the base before it. -/
theorem deadlines_least_on_grid {interval : Duration} (hinterval : 0 < interval.nanos)
    (aligned : Bool) (start : Duration) (calls : List (Duration × Duration)) :
    let g : Grid := ⟨if aligned then 0 else start.nanos, interval.nanos, hinterval⟩
    ∃ s bases, make interval aligned start = .ok s ∧
      (∀ others, g.Bases none calls others ↔ others = bases) ∧
      ((∀ p ∈ bases.zip calls, p.1 + p.2.2.nanos < Duration.limit) →
        ∃ deadlines, s.run? calls = some deadlines ∧
          deadlines.map Duration.nanos = (bases.zip calls).map fun p => p.1 + p.2.2.nanos) ∧
      bases.Pairwise (· < ·) ∧ (∀ b ∈ bases, b ∈ g) ∧
      ((∀ p ∈ bases.zip calls.tail, p.1 ≤ p.2.1.nanos) →
        ∀ p ∈ bases.zip calls, IsLeast {q | q ∈ g ∧ p.2.1.nanos < q} p.1) := by
  intro g
  have hnone : ∀ l ∈ (none : Option Nat), l ∈ g := nofun
  obtain ⟨bases, hbases⟩ := Grid.Bases.exists_bases calls hnone
  have hmake : make interval aligned start =
      .ok ⟨interval, if aligned then Duration.zero else start, none⟩ := by
    have hzero : interval.isZero = false := Duration.isZero_eq_false_iff.2 hinterval
    simp [make, hzero]
  refine ⟨_, bases, hmake, fun others => ⟨hbases.unique, ?_⟩, hbases.run?_eq ⟨?_, rfl, rfl, nofun⟩,
    hbases.increasing, hbases.mem_grid, hbases.isLeast_of_reached nofun⟩
  · rintro rfl
    exact hbases
  · cases aligned <;> rfl

/-- The clock is set back before the second call. In the other history each base is
reached before the next call, so only the time of a call decides. -/
theorem deadlines_least_on_grid_set_back :
    (∃ s deadlines, make (.ofSeconds 10) true (.ofSeconds 15) = .ok s ∧
      s.run? [(.ofSeconds 15, .zero), (.ofSeconds 3, .ofSeconds 2), (.ofSeconds 40, .zero)] =
        some deadlines ∧
      deadlines.map Duration.nanos = [20000000000, 32000000000, 50000000000]) ∧
    ∃ s deadlines, make (.ofSeconds 10) false (.ofSeconds 3) = .ok s ∧
      s.run? [(.ofSeconds 15, .zero), (.ofSeconds 23, .ofSeconds 2), (.ofSeconds 50, .zero)] =
        some deadlines ∧
      deadlines.map Duration.nanos = [23000000000, 35000000000, 53000000000] ∧
      let g : Grid := ⟨(Duration.ofSeconds 3).nanos, (Duration.ofSeconds 10).nanos, by decide⟩
      IsLeast {q | q ∈ g ∧ (Duration.ofSeconds 15).nanos < q} 23000000000 ∧
        IsLeast {q | q ∈ g ∧ (Duration.ofSeconds 23).nanos < q} 33000000000 ∧
        IsLeast {q | q ∈ g ∧ (Duration.ofSeconds 50).nanos < q} 53000000000 := by
  refine ⟨?_, ?_⟩
  · obtain ⟨s, bases, hmake, hbases, hrun, -⟩ := deadlines_least_on_grid
      (show 0 < (Duration.ofSeconds 10).nanos by decide) true (.ofSeconds 15)
      [(.ofSeconds 15, .zero), (.ofSeconds 3, .ofSeconds 2), (.ofSeconds 40, .zero)]
    have hfollow : [20000000000, 30000000000, 50000000000] = bases := by
      refine (hbases _).1 (.cons_of_base_eq nofun (by decide) fun h₁ => ?_)
      refine .cons_of_base_eq h₁ (by decide) fun h₂ => ?_
      exact .cons_of_base_eq h₂ (by decide) fun _ => .nil _
    subst hfollow
    obtain ⟨deadlines, hdeadlines, hmap⟩ := hrun (by decide)
    exact ⟨s, deadlines, hmake, hdeadlines, hmap.trans (by decide)⟩
  · obtain ⟨s, bases, hmake, hbases, hrun, -, -, hleast⟩ := deadlines_least_on_grid
      (show 0 < (Duration.ofSeconds 10).nanos by decide) false (.ofSeconds 3)
      [(.ofSeconds 15, .zero), (.ofSeconds 23, .ofSeconds 2), (.ofSeconds 50, .zero)]
    have hfollow : [23000000000, 33000000000, 53000000000] = bases := by
      refine (hbases _).1 (.cons_of_base_eq nofun (by decide) fun h₁ => ?_)
      refine .cons_of_base_eq h₁ (by decide) fun h₂ => ?_
      exact .cons_of_base_eq h₂ (by decide) fun _ => .nil _
    subst hfollow
    obtain ⟨deadlines, hdeadlines, hmap⟩ := hrun (by decide)
    have hafter := hleast (by decide)
    simp only [List.zip_cons_cons, List.zip_nil_left, List.forall_mem_cons] at hafter
    obtain ⟨hfirst, hsecond, hthird, -⟩ := hafter
    exact ⟨s, deadlines, hmake, hdeadlines, hmap.trans (by decide), hfirst, hsecond, hthird⟩

end Schedule
end MetricAgent
