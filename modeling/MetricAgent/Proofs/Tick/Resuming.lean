import MetricAgent.Proofs.Tick.Waits

/-!
# Resuming a tick that was dropped

The deadline of a dropped tick stays with the ticker, and the next tick waits
for it if it is still ahead (`ClockedTicker.run?_resumed`). A deadline that the
clock has reached is given up, and the next one is after the present
(`ClockedTicker.lt_of_tick?`). So the two cases meet at the deadline itself: it
is not ahead of a clock that stands on it, and a tick that was dropped before
it fired is skipped there.
-/

namespace MetricAgent

namespace Schedule

variable {s t : Schedule} {g : Grid} {now draw d : Duration}

theorem next?_eq_some_iff : s.next? now draw = some (t, d) ↔
    ∃ base, s.nextBase? now = some base ∧ base.add? draw = some d ∧
      t = { s with lastBase := some base } := by
  constructor
  · intro h
    obtain ⟨base, hbase, h⟩ := Option.bind_eq_some_iff.1 h
    obtain ⟨e, hadd, h⟩ := Option.bind_eq_some_iff.1 h
    cases h
    exact ⟨base, hbase, hadd, rfl⟩
  · rintro ⟨base, hbase, hadd, rfl⟩
    simp [next?, hbase, hadd]

/-- The schedule has the points of a grid. Its last base need not be one. -/
structure Over (s : Schedule) (g : Grid) : Prop where
  anchor : s.anchor.nanos = g.anchor
  interval : s.interval.nanos = g.interval

theorem Over.next? (h : s.Over g) (hnext : s.next? now draw = some (t, d)) : t.Over g := by
  obtain ⟨base, -, -, rfl⟩ := next?_eq_some_iff.1 hnext
  exact ⟨h.anchor, h.interval⟩

/-- A new deadline is after the present, if the next point is in range. -/
theorem Over.lt_of_next? (h : s.Over g) (hfits : g.firstAfter now.nanos < Duration.limit)
    (hnext : s.next? now draw = some (t, d)) : now < d := by
  obtain ⟨base, hbase, hadd, -⟩ := next?_eq_some_iff.1 hnext
  obtain ⟨p, hp, hbase⟩ := Option.bind_eq_some_iff.1 hbase
  have hpoint : now.nanos < p.nanos := by
    unfold gridPoint? at hp
    rw [Duration.add?_eq_some_iff, Duration.nanos_ofNanos, Duration.nanos_sub, h.anchor,
      h.interval] at hp
    · rw [hp]
      exact (g.isLeast_firstAfter now.nanos).1.2
    · rw [Duration.nanos_sub, h.anchor, h.interval]
      exact Nat.lt_of_le_of_lt (Nat.le_add_left _ _) hfits
  have hle : p.nanos ≤ base.nanos := by
    cases hlast : s.lastBase with
    | none =>
        rw [hlast] at hbase
        cases hbase
        exact Nat.le_refl _
    | some l =>
        rw [hlast] at hbase
        simp only at hbase
        split at hbase
        · next hpl =>
          rw [Duration.add?_eq_some_iff.1 hbase]
          exact Nat.le_trans hpl (Nat.le_add_right _ _)
        · cases hbase
          exact Nat.le_refl _
  have hd := Duration.add?_eq_some_iff.1 hadd
  change now.nanos < d.nanos
  omega

end Schedule

namespace Ticker

variable {t u : Ticker} {g : Grid} {now draw d : Duration}

theorem begin?_eq_some (h : t.begin? now draw = some (u, d)) :
    u.pending = some d ∧ (u = t ∨ t.schedule.next? now draw = some (u.schedule, d)) := by
  by_cases hahead : ∃ p ∈ t.pending, now < p
  · obtain ⟨p, hp, hlt⟩ := hahead
    rw [begin?_of_lt hp hlt] at h
    cases h
    exact ⟨hp, .inl rfl⟩
  · rw [begin?_of_not_lt fun p hp hlt => hahead ⟨p, hp, hlt⟩] at h
    obtain ⟨next, hnext, h⟩ := Option.map_eq_some_iff.1 h
    cases h
    exact ⟨rfl, .inr hnext⟩

theorem over_of_begin? (hover : t.schedule.Over g) (h : t.begin? now draw = some (u, d)) :
    u.schedule.Over g := by
  obtain ⟨-, rfl | hnext⟩ := begin?_eq_some h
  · exact hover
  · exact hover.next? hnext

end Ticker

namespace ClockedTicker

variable {s s' : ClockedTicker} {g : Grid} {now draw d : Duration} {a : TickerAction}
  {actions : List TickerAction} {waits : List (Wait Duration)}

theorem step?_tick_eq_some (h : s.step? (.tick draw) = some (s', waits)) :
    ∃ t d ended, s.ticker.begin? s.now draw = some (t, d) ∧ s' = ⟨t.finish, ended⟩ ∧
      waits = [⟨s.now, d, some ended⟩] := by
  obtain ⟨⟨t, d⟩, htick, h⟩ := Option.bind_eq_some_iff.1 h
  obtain ⟨⟨u, e⟩, hbegin, htick⟩ := Option.bind_eq_some_iff.1 htick
  obtain ⟨ended, -, h⟩ := Option.bind_eq_some_iff.1 h
  cases htick
  cases h
  exact ⟨u, d, ended, hbegin, rfl, rfl⟩

theorem step?_abandon_eq_some (h : s.step? (.abandon draw) = some (s', waits)) :
    ∃ t d, s.ticker.begin? s.now draw = some (t, d) ∧ s' = ⟨t, s.now⟩ ∧
      waits = [⟨s.now, d, none⟩] := by
  obtain ⟨⟨t, d⟩, hbegin, h⟩ := Option.bind_eq_some_iff.1 h
  cases h
  exact ⟨t, d, hbegin, rfl, rfl⟩

theorem over_of_step? (hover : s.ticker.schedule.Over g) (h : s.step? a = some (s', waits)) :
    s'.ticker.schedule.Over g := by
  cases a with
  | tick draw =>
      obtain ⟨t, d, ended, hbegin, rfl, -⟩ := step?_tick_eq_some h
      have hover : t.schedule.Over g := Ticker.over_of_begin? hover hbegin
      exact hover
  | abandon draw =>
      obtain ⟨t, d, hbegin, rfl, -⟩ := step?_abandon_eq_some h
      exact Ticker.over_of_begin? hover hbegin
  | setClock now =>
      cases h
      exact hover

theorem over_of_run? (hover : s.ticker.schedule.Over g) (h : s.run? actions = some (s', waits)) :
    s'.ticker.schedule.Over g := by
  induction actions generalizing s waits with
  | nil =>
      cases h
      exact hover
  | cons a actions ih =>
      obtain ⟨⟨t, first⟩, hstep, h⟩ := Option.bind_eq_some_iff.1 h
      obtain ⟨⟨u, rest⟩, hrun, h⟩ := Option.bind_eq_some_iff.1 h
      cases h
      exact ih (over_of_step? hover hstep) hrun

theorem run?_setClock_tick (s : ClockedTicker) (now draw : Duration) :
    s.run? [.setClock now, .tick draw] = (⟨s.ticker, now⟩ : ClockedTicker).step? (.tick draw) := by
  simp [run?, step?]

/-- A deadline that is ahead is waited for, and nothing else changes. -/
theorem run?_resumed (hpending : s.ticker.pending = some d) (hahead : now < d) (draw : Duration) :
    s.run? [.setClock now, .tick draw] =
      some (⟨s.ticker.finish, d⟩, [⟨now, d, some d⟩]) := by
  have hended : now.add? (d.sub now) = some d := by
    rw [Duration.add?_eq_some_iff, Duration.nanos_sub]
    exact (Nat.add_sub_cancel' (Nat.le_of_lt hahead)).symm
  rw [run?_setClock_tick]
  simp [step?, Ticker.tick?, Ticker.begin?_of_lt hpending hahead, hended]

theorem lt_of_tick? (hover : s.ticker.schedule.Over g) (hpast : ∀ p ∈ s.ticker.pending, ¬ s.now < p)
    (hfits : g.firstAfter s.now.nanos < Duration.limit)
    (h : s.step? (.tick draw) = some (s', waits)) : ∀ w ∈ waits, s.now < w.deadline := by
  obtain ⟨t, d, ended, hbegin, -, rfl⟩ := step?_tick_eq_some h
  rw [Ticker.begin?_of_not_lt hpast] at hbegin
  obtain ⟨next, hnext, hbegin⟩ := Option.map_eq_some_iff.1 hbegin
  cases hbegin
  rintro w (_ | ⟨_, ⟨⟩⟩)
  exact hover.lt_of_next? hfits hnext

end ClockedTicker

namespace Ticker

/-- A tick is dropped in its wait, after any history, and the next one begins at
`now`. It waits for the same deadline and returns it if that is ahead. It waits
for a later one if the deadline has come, be it just at `now`. -/
theorem resumed_iff_ahead {interval jitter : Duration} (hinterval : 0 < interval.nanos)
    (aligned : Bool) (start : Duration) {t : Ticker}
    (hmake : make interval jitter aligned start = .ok t) {actions : List TickerAction}
    {s s' : ClockedTicker} {waits : List (Wait Duration)} {draw : Duration} {w : Wait Duration}
    (hrun : (ClockedTicker.mk t start).run? actions = some (s, waits))
    (habandon : s.step? (.abandon draw) = some (s', [w])) (now draw' : Duration) :
    let g : Grid := ⟨if aligned then 0 else start.nanos, interval.nanos, hinterval⟩
    (now < w.deadline → ∃ u, s'.run? [.setClock now, .tick draw'] =
      some (u, [⟨now, w.deadline, some w.deadline⟩])) ∧
    (w.deadline ≤ now → g.firstAfter now.nanos < Duration.limit →
      ∀ u next, s'.run? [.setClock now, .tick draw'] = some (u, next) →
        ∀ v ∈ next, w.deadline < v.deadline) := by
  intro g
  have hover : t.schedule.Over g := by
    rw [make_eq hinterval] at hmake
    cases hmake
    exact ⟨by cases aligned <;> rfl, rfl⟩
  obtain ⟨u, d, hbegin, rfl, hw⟩ := ClockedTicker.step?_abandon_eq_some habandon
  cases hw
  obtain ⟨hpending, -⟩ := begin?_eq_some hbegin
  refine ⟨fun hahead => ⟨_, ClockedTicker.run?_resumed hpending hahead draw'⟩, ?_⟩
  intro hreached hfits u' next hnext v hv
  rw [ClockedTicker.run?_setClock_tick] at hnext
  have hpast : ∀ p ∈ u.pending, ¬ now < p := by
    rw [hpending]
    rintro _ ⟨⟩
    exact Nat.not_lt.2 hreached
  have hlt := ClockedTicker.lt_of_tick? (s := ⟨u, now⟩)
    (over_of_begin? (ClockedTicker.over_of_run? hover hrun) hbegin) hpast hfits hnext v hv
  exact Nat.lt_of_le_of_lt hreached hlt

theorem resumed_iff_ahead_after_tick :
    let s : ClockedTicker := ⟨⟨⟨.ofSeconds 10, .zero, some (.ofSeconds 10)⟩, .ofSeconds 5, none⟩,
      .ofSeconds 5⟩
    let s' : ClockedTicker := ⟨⟨⟨.ofSeconds 10, .zero, some (.ofSeconds 20)⟩, .ofSeconds 5,
      some (.ofSeconds 24)⟩, .ofSeconds 5⟩
    (ClockedTicker.mk ⟨⟨.ofSeconds 10, .zero, none⟩, .ofSeconds 5, none⟩ (.ofSeconds 3)).run?
        [.tick (.ofSeconds 2), .setClock (.ofSeconds 5)] =
          some (s, [⟨.ofSeconds 3, .ofSeconds 12, some (.ofSeconds 12)⟩]) ∧
      s.step? (.abandon (.ofSeconds 4)) =
        some (s', [⟨.ofSeconds 5, .ofSeconds 24, none⟩]) ∧
      ∃ u, s'.run? [.setClock (.ofSeconds 23), .tick .zero] =
        some (u, [⟨.ofSeconds 23, .ofSeconds 24, some (.ofSeconds 24)⟩]) := by
  intro s s'
  have hrun : (ClockedTicker.mk ⟨⟨.ofSeconds 10, .zero, none⟩, .ofSeconds 5, none⟩
      (.ofSeconds 3)).run? [.tick (.ofSeconds 2), .setClock (.ofSeconds 5)] =
        some (s, [⟨.ofSeconds 3, .ofSeconds 12, some (.ofSeconds 12)⟩]) := by decide +kernel
  have habandon : s.step? (.abandon (.ofSeconds 4)) =
      some (s', [⟨.ofSeconds 5, .ofSeconds 24, none⟩]) := by decide +kernel
  refine ⟨hrun, habandon, ?_⟩
  exact (resumed_iff_ahead (show 0 < (Duration.ofSeconds 10).nanos by decide) true (.ofSeconds 3)
    (make_eq (by decide) (.ofSeconds 5) true (.ofSeconds 3)) hrun habandon (.ofSeconds 23)
    .zero).1 (by decide)

/-- A tick is dropped, and the next one begins just at its deadline. The
deadline is not waited for any more. -/
theorem skipped_at_deadline :
    ∃ t s s', make (.ofSeconds 10) .zero true (.ofSeconds 3) = .ok t ∧
      (ClockedTicker.mk t (.ofSeconds 3)).step? (.abandon .zero) =
        some (s, [⟨.ofSeconds 3, .ofSeconds 10, none⟩]) ∧
      s.run? [.setClock (.ofSeconds 10), .tick .zero] =
        some (s', [⟨.ofSeconds 10, .ofSeconds 20, some (.ofSeconds 20)⟩]) :=
  ⟨⟨⟨.ofSeconds 10, .zero, none⟩, .zero, none⟩,
    ⟨⟨⟨.ofSeconds 10, .zero, some (.ofSeconds 10)⟩, .zero, some (.ofSeconds 10)⟩, .ofSeconds 3⟩,
    ⟨⟨⟨.ofSeconds 10, .zero, some (.ofSeconds 20)⟩, .zero, none⟩, .ofSeconds 20⟩,
    rfl, by decide +kernel, by decide +kernel⟩

end Ticker

end MetricAgent
