import MetricAgent.Proofs.Tick.Grid
import MetricAgent.Tick.Waiting

/-!
# The waits of a ticker

A ticker keeps two things between its calls: the base of its last deadline and
a deadline that it has not waited for to the end. `Grid.Waits` says what a
history of calls waits for, in natural numbers: a deadline that is still ahead
is kept, and otherwise the next one has its base at the least point of the grid
that is after the present and after the last base. A ticker does the same for
as long as the deadlines are in range (`Grid.Waits.run?_eq`).

With a jitter of at most the interval, a deadline lies before the base after
its own, whether it is waited for once, dropped and kept, or dropped and given
up. That carries the order of all deadlines that are returned
(`Grid.Waits.lt_returned`).
-/

namespace MetricAgent

namespace Grid

variable {g : Grid} {last pending next : Option Nat} {now draw d : Nat}

/-- What a call waits for, and the last base after it. -/
inductive Aims (g : Grid) (now draw : Nat) (last : Option Nat) :
    Option Nat → Option Nat → Nat → Prop
  | kept {d : Nat} (ahead : now < d) : Aims g now draw last (some d) last d
  | fresh {pending : Option Nat} {base : Nat} (past : ∀ d ∈ pending, d ≤ now)
      (least : IsLeast (g.candidates now last) base) :
      Aims g now draw last pending (some base) (base + draw)

/-- The waits of a history, from a last base, a deadline that is left and a time
of the clock. -/
inductive Waits (g : Grid) :
    Option Nat → Option Nat → Nat → List TickerAction → List (Wait Nat) → Prop
  | nil (last pending : Option Nat) (now : Nat) : Waits g last pending now [] []
  | tick {last pending next : Option Nat} {now d : Nat} {draw : Duration}
      {actions : List TickerAction} {waits : List (Wait Nat)}
      (aim : g.Aims now draw.nanos last pending next d)
      (rest : Waits g next none d actions waits) :
      Waits g last pending now (.tick draw :: actions) (⟨now, d, some d⟩ :: waits)
  | abandon {last pending next : Option Nat} {now d : Nat} {draw : Duration}
      {actions : List TickerAction} {waits : List (Wait Nat)}
      (aim : g.Aims now draw.nanos last pending next d)
      (rest : Waits g next (some d) now actions waits) :
      Waits g last pending now (.abandon draw :: actions) (⟨now, d, none⟩ :: waits)
  | setClock {last pending : Option Nat} {now : Nat} {moment : Duration}
      {actions : List TickerAction} {waits : List (Wait Nat)}
      (rest : Waits g last pending moment.nanos actions waits) :
      Waits g last pending now (.setClock moment :: actions) waits

/-! ### One call -/

theorem exists_aims (now draw : Nat) (pending : Option Nat) (hlast : ∀ l ∈ last, l ∈ g) :
    ∃ next d, g.Aims now draw last pending next d := by
  by_cases hahead : ∃ d ∈ pending, now < d
  · obtain ⟨d, rfl, hd⟩ := hahead
    exact ⟨_, _, .kept hd⟩
  · exact ⟨_, _, .fresh (fun d hd => Nat.not_lt.1 fun hlt => hahead ⟨d, hd, hlt⟩)
      (isLeast_base now hlast)⟩

theorem Aims.unique (h : g.Aims now draw last pending next d) {next' : Option Nat} {d' : Nat}
    (h' : g.Aims now draw last pending next' d') : next' = next ∧ d' = d := by
  cases h with
  | kept hahead =>
      cases h' with
      | kept _ => exact ⟨rfl, rfl⟩
      | fresh hpast _ => exact absurd (hpast _ rfl) (Nat.not_le.2 hahead)
  | fresh hpast hleast =>
      cases h' with
      | kept hahead => exact absurd (hpast _ rfl) (Nat.not_le.2 hahead)
      | fresh _ hleast' =>
          obtain rfl := hleast.unique hleast'
          exact ⟨rfl, rfl⟩

theorem Aims.mem_grid (h : g.Aims now draw last pending next d) (hlast : ∀ l ∈ last, l ∈ g) :
    ∀ l ∈ next, l ∈ g := by
  cases h with
  | kept _ => exact hlast
  | fresh _ hleast =>
      rintro _ ⟨⟩
      exact hleast.1.1

theorem Aims.lt (h : g.Aims now draw last pending next d) : now < d := by
  cases h with
  | kept hahead => exact hahead
  | fresh _ hleast => exact Nat.lt_of_lt_of_le hleast.1.2.1 (Nat.le_add_right _ _)

/-! ### The order of deadlines -/

/-- A deadline that is left is nearer to its base than an interval. -/
structure Near (g : Grid) (last pending : Option Nat) : Prop where
  last_mem : ∀ l ∈ last, l ∈ g
  pending_lt : ∀ p ∈ pending, ∃ l ∈ last, p < l + g.interval

/-- All that can be returned from here on is after `f`. -/
structure After (g : Grid) (f : Nat) (last pending : Option Nat) : Prop where
  last_lt : ∃ l ∈ last, l ∈ g ∧ f < l + g.interval
  pending_lt : ∀ p ∈ pending, f < p

theorem Aims.near (h : g.Aims now draw last pending next d) (hdraw : draw < g.interval)
    (hnear : g.Near last pending) : g.Near next (some d) := by
  refine ⟨h.mem_grid hnear.last_mem, ?_⟩
  rintro _ ⟨⟩
  cases h with
  | kept _ => exact hnear.pending_lt d rfl
  | fresh _ _ => exact ⟨_, rfl, Nat.add_lt_add_left hdraw _⟩

theorem Near.after (h : g.Near last (some d)) : g.After d last none := by
  obtain ⟨l, hl, hlt⟩ := h.pending_lt d rfl
  exact ⟨⟨l, hl, h.last_mem l hl, hlt⟩, nofun⟩

theorem After.aims {f : Nat} (h : g.After f last pending)
    (haims : g.Aims now draw last pending next d) : g.After f next (some d) := by
  cases haims with
  | kept _ => exact h
  | @fresh _ base _ hleast =>
      obtain ⟨l, hl, hmem, hlt⟩ := h.last_lt
      have hbase : l + g.interval ≤ base := add_interval_le hmem hleast.1.1 (hleast.1.2.2 l hl)
      have hinterval := g.interval_pos
      refine ⟨⟨base, rfl, hleast.1.1, by omega⟩, ?_⟩
      rintro _ ⟨⟩
      omega

namespace Waits

variable {actions : List TickerAction} {waits : List (Wait Nat)}

theorem lt_returned {f : Nat} (h : g.Waits last pending now actions waits)
    (hafter : g.After f last pending) : ∀ d ∈ waits.filterMap Wait.returned?, f < d := by
  induction h with
  | nil _ _ _ => exact nofun
  | tick haim _ ih =>
      have hnext := hafter.aims haim
      exact List.forall_mem_cons.2 ⟨hnext.pending_lt _ rfl, ih ⟨hnext.last_lt, nofun⟩⟩
  | abandon haim _ ih => exact ih (hafter.aims haim)
  | setClock _ ih => exact ih hafter

/-- What is returned increases, however the clock moves. -/
theorem increasing {bound : Duration} (h : g.Waits last pending now actions waits)
    (hbound : bound.nanos ≤ g.interval) (hdraws : ∀ a ∈ actions, a.DrawnBelow bound)
    (hnear : g.Near last pending) : (waits.filterMap Wait.returned?).Pairwise (· < ·) := by
  have hlt : ∀ draw : Duration, draw = .zero ∨ draw < bound → draw.nanos < g.interval := by
    rintro draw (rfl | hdraw)
    · exact g.interval_pos
    · exact Nat.lt_of_lt_of_le hdraw hbound
  induction h with
  | nil _ _ _ => exact .nil
  | tick haim hrest ih =>
      obtain ⟨hdraw, hdraws⟩ := List.forall_mem_cons.1 hdraws
      have hnext := haim.near (hlt _ hdraw) hnear
      exact .cons (hrest.lt_returned hnext.after) (ih hdraws ⟨hnext.last_mem, nofun⟩)
  | abandon haim _ ih =>
      obtain ⟨hdraw, hdraws⟩ := List.forall_mem_cons.1 hdraws
      exact ih hdraws (haim.near (hlt _ hdraw) hnear)
  | setClock _ ih => exact ih (List.forall_mem_cons.1 hdraws).2 hnear

/-- A wait begins before its deadline, and is over there. -/
theorem ends_at_deadline (h : g.Waits last pending now actions waits) :
    ∀ w ∈ waits, w.began < w.deadline ∧ ∀ e ∈ w.ended, e = w.deadline := by
  induction h with
  | nil _ _ _ => exact nofun
  | tick haim _ ih => exact List.forall_mem_cons.2 ⟨⟨haim.lt, by rintro _ ⟨⟩; rfl⟩, ih⟩
  | abandon haim _ ih => exact List.forall_mem_cons.2 ⟨⟨haim.lt, nofun⟩, ih⟩
  | setClock _ ih => exact ih

theorem exists_waits (actions : List TickerAction) (pending : Option Nat) (now : Nat)
    (hlast : ∀ l ∈ last, l ∈ g) : ∃ waits, g.Waits last pending now actions waits := by
  induction actions generalizing last pending now with
  | nil => exact ⟨[], .nil last pending now⟩
  | cons a actions ih =>
      cases a with
      | tick draw =>
          obtain ⟨next, d, haim⟩ := exists_aims now draw.nanos pending hlast
          obtain ⟨waits, hrest⟩ := ih none d (haim.mem_grid hlast)
          exact ⟨_, .tick haim hrest⟩
      | abandon draw =>
          obtain ⟨next, d, haim⟩ := exists_aims now draw.nanos pending hlast
          obtain ⟨waits, hrest⟩ := ih (some d) now (haim.mem_grid hlast)
          exact ⟨_, .abandon haim hrest⟩
      | setClock moment =>
          obtain ⟨waits, hrest⟩ := ih pending moment.nanos hlast
          exact ⟨waits, .setClock hrest⟩

theorem unique (h : g.Waits last pending now actions waits) {others : List (Wait Nat)}
    (hothers : g.Waits last pending now actions others) : others = waits := by
  induction h generalizing others with
  | nil _ _ _ =>
      cases hothers
      rfl
  | tick haim _ ih =>
      cases hothers with
      | tick haim' hrest' =>
          obtain ⟨rfl, rfl⟩ := haim.unique haim'
          rw [ih hrest']
  | abandon haim _ ih =>
      cases hothers with
      | abandon haim' hrest' =>
          obtain ⟨rfl, rfl⟩ := haim.unique haim'
          rw [ih hrest']
  | setClock _ ih =>
      cases hothers with
      | setClock hrest' => exact ih hrest'

end Waits

end Grid

namespace Ticker

variable {t : Ticker} {now draw : Duration}

theorem begin?_of_lt {d : Duration} (hpending : t.pending = some d) (hahead : now < d) :
    t.begin? now draw = some (t, d) := by
  simp [begin?, hpending, hahead]

theorem begin?_of_not_lt (hpast : ∀ p ∈ t.pending, ¬ now < p) :
    t.begin? now draw = (t.schedule.next? now draw).map fun next =>
      ({ t with schedule := next.1, pending := some next.2 }, next.2) := by
  unfold begin?
  rw [Option.map_eq_bind]
  cases hpending : t.pending with
  | none => rfl
  | some p => exact if_neg (hpast p hpending)

end Ticker

namespace ClockedTicker

variable {g : Grid} {last pending next : Option Nat} {now d : Nat} {draw : Duration}
  {s : ClockedTicker}

/-- A ticker ticks on a grid, and its clock says `now`. -/
structure Follows (s : ClockedTicker) (g : Grid) (last pending : Option Nat) (now : Nat) :
    Prop where
  schedule : s.ticker.schedule.On g last
  pending : s.ticker.pending.map Duration.nanos = pending
  now : s.now.nanos = now

theorem Follows.exists_begin? (h : s.Follows g last pending now)
    (haim : g.Aims now draw.nanos last pending next d) (hfits : d < Duration.limit) :
    ∃ t : Ticker, s.ticker.begin? s.now draw = some (t, ⟨d, hfits⟩) ∧ t.schedule.On g next ∧
      t.pending = some ⟨d, hfits⟩ := by
  obtain ⟨hschedule, hpending, rfl⟩ := h
  cases haim with
  | kept hahead =>
      obtain ⟨e, he, rfl⟩ := Option.map_eq_some_iff.1 hpending
      exact ⟨s.ticker, Ticker.begin?_of_lt he hahead, hschedule, he⟩
  | @fresh _ base hpast hleast =>
      obtain rfl := hleast.unique (Grid.isLeast_base s.now.nanos hschedule.last_mem)
      obtain ⟨schedule, e, hnext, hon, he⟩ := hschedule.exists_next? hfits
      obtain rfl : e = ⟨_, hfits⟩ := Duration.ext he
      have hpast : ∀ p ∈ s.ticker.pending, ¬ s.now < p := fun p hp =>
        Nat.not_lt.2 (hpast _ (hpending ▸ Option.mem_map_of_mem _ hp))
      refine ⟨{ s.ticker with schedule := schedule, pending := some ⟨_, hfits⟩ }, ?_, hon, rfl⟩
      rw [Ticker.begin?_of_not_lt hpast, hnext]
      rfl

end ClockedTicker

/-- A ticker waits as its grid says, as long as the deadlines are in range. -/
theorem Grid.Waits.run?_eq {g : Grid} {last pending : Option Nat} {now : Nat}
    {actions : List TickerAction} {waits : List (Wait Nat)}
    (h : g.Waits last pending now actions waits) {s : ClockedTicker}
    (hs : s.Follows g last pending now) (hfits : ∀ w ∈ waits, w.deadline < Duration.limit) :
    ∃ t recorded, s.run? actions = some (t, recorded) ∧
      recorded.map (Wait.map Duration.nanos) = waits := by
  induction h generalizing s with
  | nil _ _ _ => exact ⟨s, [], rfl, rfl⟩
  | @tick _ _ _ _ d draw _ _ haim _ ih =>
      obtain ⟨hd, hfits⟩ := List.forall_mem_cons.1 hfits
      obtain ⟨t, hbegin, hon, -⟩ := hs.exists_begin? haim hd
      have hended : s.now.add? ((⟨d, hd⟩ : Duration).sub s.now) = some ⟨d, hd⟩ := by
        have hlt := haim.lt
        rw [Duration.add?_eq_some_iff, Duration.nanos_sub, hs.now]
        simp only
        omega
      obtain ⟨u, recorded, hrun, hmap⟩ := ih (s := ⟨t.finish, ⟨d, hd⟩⟩) ⟨hon, rfl, rfl⟩ hfits
      refine ⟨u, ⟨s.now, ⟨d, hd⟩, some ⟨d, hd⟩⟩ :: recorded, ?_, ?_⟩
      · simp [ClockedTicker.run?, ClockedTicker.step?, Ticker.tick?, hbegin, hended, hrun]
      · rw [List.map_cons, hmap, Wait.map, hs.now]
        rfl
  | @abandon _ _ _ _ d draw _ _ haim _ ih =>
      obtain ⟨hd, hfits⟩ := List.forall_mem_cons.1 hfits
      obtain ⟨t, hbegin, hon, hpending⟩ := hs.exists_begin? haim hd
      obtain ⟨u, recorded, hrun, hmap⟩ :=
        ih (s := ⟨t, s.now⟩) ⟨hon, by simp [hpending], hs.now⟩ hfits
      refine ⟨u, ⟨s.now, ⟨d, hd⟩, none⟩ :: recorded, ?_, ?_⟩
      · simp [ClockedTicker.run?, ClockedTicker.step?, hbegin, hrun]
      · rw [List.map_cons, hmap, Wait.map, hs.now]
        rfl
  | @setClock _ _ _ moment _ _ _ ih =>
      obtain ⟨u, recorded, hrun, hmap⟩ :=
        ih (s := ⟨s.ticker, moment⟩) ⟨hs.schedule, hs.pending, rfl⟩ hfits
      refine ⟨u, recorded, ?_, hmap⟩
      simp [ClockedTicker.run?, ClockedTicker.step?, hrun]

namespace Ticker

variable {interval jitter : Duration}

theorem make_eq (hinterval : 0 < interval.nanos) (jitter : Duration) (aligned : Bool)
    (start : Duration) : make interval jitter aligned start =
      .ok ⟨⟨interval, if aligned then .zero else start, none⟩, jitter, none⟩ := by
  have hzero : interval.isZero = false := Duration.isZero_eq_false_iff.2 hinterval
  simp [make, Schedule.make, hzero]

/-- A ticker of any interval, aligned or not, with a jitter of at most the
interval, through any history of ticks, dropped ticks and moves of its clock.
As long as the deadlines are in range, those that are returned increase, and
the clock is at the deadline when a wait is over. -/
theorem returned_in_order (hinterval : 0 < interval.nanos) (hjitter : jitter ≤ interval)
    (aligned : Bool) (start : Duration) (actions : List TickerAction)
    (hdraws : ∀ a ∈ actions, a.DrawnBelow jitter) :
    let g : Grid := ⟨if aligned then 0 else start.nanos, interval.nanos, hinterval⟩
    ∃ t waits, make interval jitter aligned start = .ok t ∧
      (∀ others, g.Waits none none start.nanos actions others ↔ others = waits) ∧
      ((∀ w ∈ waits, w.deadline < Duration.limit) →
        ∃ s recorded, (ClockedTicker.mk t start).run? actions = some (s, recorded) ∧
          recorded.map (Wait.map Duration.nanos) = waits ∧
          (recorded.filterMap Wait.returned?).Pairwise (· < ·) ∧
          (recorded.filterMap Wait.returned?).Nodup ∧
          ∀ w ∈ recorded, w.began < w.deadline ∧ ∀ e ∈ w.ended, e = w.deadline) := by
  intro g
  have hnone : ∀ l ∈ (none : Option Nat), l ∈ g := nofun
  obtain ⟨waits, hwaits⟩ := Grid.Waits.exists_waits actions none start.nanos hnone
  refine ⟨_, waits, make_eq hinterval jitter aligned start,
    fun others => ⟨hwaits.unique, fun h => h ▸ hwaits⟩, fun hfits => ?_⟩
  have hfollows : ClockedTicker.Follows ⟨⟨⟨interval, if aligned then .zero else start, none⟩,
      jitter, none⟩, start⟩ g none none start.nanos :=
    ⟨⟨by cases aligned <;> rfl, rfl, rfl, nofun⟩, rfl, rfl⟩
  obtain ⟨s, recorded, hrun, hmap⟩ := hwaits.run?_eq hfollows hfits
  have hincreasing : (recorded.filterMap Wait.returned?).Pairwise (· < ·) := by
    have h := hwaits.increasing hjitter hdraws ⟨hnone, nofun⟩
    rw [← hmap, Wait.filterMap_returned?_map, List.pairwise_map] at h
    exact h
  refine ⟨s, recorded, hrun, hmap, hincreasing, ?_, fun w hw => ?_⟩
  · exact hincreasing.imp fun hlt heq => Nat.ne_of_lt hlt (congrArg Duration.nanos heq)
  · obtain ⟨hbegan, hended⟩ := hwaits.ends_at_deadline (w.map Duration.nanos)
      (hmap ▸ List.mem_map_of_mem hw)
    exact ⟨hbegan, fun e he => Duration.ext (hended _ (Option.mem_map_of_mem _ he))⟩

/-- A dropped tick is waited for again, and then the clock is set back before the
base that it had. -/
theorem returned_in_order_set_back :
    ∃ t s recorded, make (.ofSeconds 10) (.ofSeconds 10) true (.ofSeconds 3) = .ok t ∧
      (ClockedTicker.mk t (.ofSeconds 3)).run? [.abandon (.ofSeconds 9), .setClock (.ofSeconds 12),
        .tick .zero, .setClock (.ofSeconds 2), .tick .zero] = some (s, recorded) ∧
      (recorded.filterMap Wait.returned?).map Duration.nanos = [19000000000, 20000000000] := by
  obtain ⟨t, waits, hmake, hwaits, hrun⟩ := returned_in_order
    (show 0 < (Duration.ofSeconds 10).nanos by decide)
    (show Duration.ofSeconds 10 ≤ .ofSeconds 10 by decide) true (.ofSeconds 3)
    [.abandon (.ofSeconds 9), .setClock (.ofSeconds 12), .tick .zero, .setClock (.ofSeconds 2),
      .tick .zero]
    (by
      simp only [List.forall_mem_cons, TickerAction.DrawnBelow]
      exact ⟨.inr (by decide), trivial, .inl trivial, trivial, .inl trivial, nofun⟩)
  have hfollow : [⟨3000000000, 19000000000, none⟩,
      ⟨12000000000, 19000000000, some 19000000000⟩,
      ⟨2000000000, 20000000000, some 20000000000⟩] = waits := by
    refine (hwaits _).1 (.abandon (.fresh nofun (Grid.isLeast_of_base_eq (b := 10000000000) nofun
      (by decide))) (.setClock (.tick (.kept (by decide)) (.setClock (.tick (.fresh nofun
        (Grid.isLeast_of_base_eq (b := 20000000000) ?_ (by decide))) (.nil _ _ _))))))
    rintro _ ⟨⟩
    exact ⟨1, by decide, rfl⟩
  subst hfollow
  obtain ⟨s, recorded, hrun, hmap, -⟩ := hrun (by decide)
  refine ⟨t, s, recorded, hmake, hrun, ?_⟩
  rw [← Wait.filterMap_returned?_map, hmap]
  rfl

end Ticker

end MetricAgent
