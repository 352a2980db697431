import MetricAgent.Proofs.Signal.Attendance

/-!
# What the broadcaster counts

Whatever is done with a signal, and in whatever order, the count is the number
of the watchers that were enrolled with the broadcaster, are still there and have
not observed the signal (`Signal.counted_record`).

A watcher that has observed the signal and then receives is done at once. It
observes nothing anew, so this is not a report.
-/

namespace MetricAgent

/-- Fires the signal, if nothing has fired it before. -/
def SignalAction.Fires (a : SignalAction) : Prop :=
  a = .fire ∨ a = .dropBroadcaster ∨ a = .fireAndWait

/-- Asks something of one watcher and makes no other. -/
inductive SignalAction.Asks (i : Nat) : SignalAction → Prop where
  | tryReceive : Asks i (.tryReceive i)
  | receive : Asks i (.receive i)
  | drop : Asks i (.drop i)

variable {h : Attendance} {s t : Signal} {i : Nat} {a : SignalAction} {answer : SignalAnswer}

/-! ### Firing -/

namespace Signal

theorem Act.fired (hrule : s.Act a t answer) (ht : t.fired = true) : s.fired = true ∨ a.Fires := by
  cases hrule with
  | observe _ _ hfired => exact .inl hfired
  | receive _ hfired => exact .inl hfired
  | drop => exact .inl ((s.fired_depart _).symm.trans ht)
  | fire hfires => exact .inr (hfires.imp_right .inl)
  | wait => exact .inr (.inr (.inr rfl))
  | _ => exact .inl ht

theorem fired_step (s : Signal) (a : SignalAction) (ht : (s.step a).1.fired = true) :
    s.fired = true ∨ a.Fires := by
  by_cases ha : a = .fireAndWait
  · exact .inr (.inr (.inr ha))
  · obtain ⟨b, n, htell⟩ := (s.act a).1.tell_eq
    rw [step_eq_of_ne ha, htell] at ht
    exact (s.act_rule a).fired ht

/-- Only what fires the signal makes it fired. -/
theorem fired_record (s : Signal) (h : Attendance) (actions : List SignalAction)
    (ht : (s.record h actions).1.fired = true) : s.fired = true ∨ ∃ a ∈ actions, a.Fires := by
  induction actions generalizing s h with
  | nil => exact .inl ht
  | cons a actions ih =>
      rcases ih _ _ ht with hfired | ⟨b, hb, hfires⟩
      · refine (s.fired_step a hfired).imp_right fun hfires => ?_
        exact ⟨a, List.mem_cons_self, hfires⟩
      · exact .inr ⟨b, List.mem_cons_of_mem _ hb, hfires⟩

end Signal

/-! ### Those who are not counted -/

theorem Signal.peers_step (s : Signal) (a : SignalAction) :
    (s.step a).1.peers = (s.act a).1.peers := by
  by_cases ha : a = .fireAndWait
  · subst ha
    obtain ⟨b, hpoll⟩ := s.beginWait.poll_eq
    simp only [step_fireAndWait, act]
    split
    · rfl
    · rw [hpoll]
  · obtain ⟨b, n, htell⟩ := (s.act a).1.tell_eq
    rw [step_eq_of_ne ha, htell]

theorem Recorded.peers_depart (hr : Recorded h s) {w : Watcher} (hi : i ∉ h.outstanding)
    (hthere : (s.slot i).watcher? = some w) : (s.depart w).1.peers = s.peers := by
  rw [Signal.peers_depart, if_neg]
  exact fun hcounted => hi ((hr.knows i w hthere).counted.2 hcounted)

theorem Recorded.peers_act (hr : Recorded h s) (hi : i ∉ h.outstanding) (ha : a.Asks i)
    (hrule : s.Act a t answer) : t.peers = s.peers := by
  cases hrule with
  | nothing => rfl
  | register => cases ha
  | clone => cases ha
  | observe hidle =>
      cases ha
      -- The mark that it has observed the signal is not looked at.
      have hsame : ∀ w : Watcher, (s.depart { w with received := true }).1 = (s.depart w).1 := by
        intro w
        simp only [Signal.depart_eq]
        split <;> rfl
      exact (congrArg Signal.peers (hsame _)).trans (hr.peers_depart hi (by rw [hidle]; rfl))
  | begin => rfl
  | receive hthere =>
      cases ha
      exact hr.peers_depart hi hthere
  | drop hthere =>
      cases ha
      exact hr.peers_depart hi hthere
  | fire => rfl
  | wait => cases ha

theorem Signal.peers_clone (s : Signal) (i : Nat) : (s.act (.clone i)).1.peers = s.peers := by
  simp only [act]
  split <;> rfl

/-! ### The count -/

/-- What the broadcaster counts after a number of actions, and what its watchers
have reported. -/
structure Signal.Counted (actions : List SignalAction) (s : Signal) (h : Attendance) : Prop where
  peers : s.peers = h.outstanding.card
  outstanding : ∀ i, i ∈ h.outstanding ↔ i ∈ h.enrolled ∧ i ∉ h.reports ∧ s.slot i ≠ .gone
  bound : s.peers ≤ s.slots.length
  /-- Nobody lowers the count twice. -/
  lowered : h.lowered.Nodup ∧ ∀ i ∈ h.lowered, i ∈ h.enrolled ∧ i ∉ h.outstanding
  total : s.peers + h.lowered.length = h.enrolled.card
  clone : ∀ i, (s.step (.clone i)).1.peers = s.peers
  /-- A clone is never enrolled, so this is so of all clones. -/
  uncounted : ∀ i ∉ h.outstanding, ∀ a : SignalAction, a.Asks i → (s.step a).1.peers = s.peers
  fired : h.reports ≠ [] → ∃ a ∈ actions, a.Fires
  reports : h.reports.Nodup
  /-- One that has reported is refused, unless it is there no more or receives. -/
  refused : ∀ i ∈ h.reports, ∀ a : SignalAction, a = .tryReceive i ∨ a = .register i →
    (s.step a).1 = s ∧
      ((s.step a).2 = .alreadyReceived ∨ (s.step a).2 = .invalid ∧ ∀ w, s.slot i ≠ .idle w)

theorem Recorded.refused (hr : Recorded h s) (hi : i ∈ h.reports)
    (ha : a = .tryReceive i ∨ a = .register i) : (s.act a).1 = s ∧
      ((s.act a).2 = .alreadyReceived ∨ (s.act a).2 = .invalid ∧ ∀ w, s.slot i ≠ .idle w) := by
  cases hslot : s.slot i with
  | idle w =>
      have hreceived := (hr.knows i w (by rw [hslot]; rfl)).received hi
      rcases ha with rfl | rfl
      · simp [Signal.act, hslot, hreceived]
      · simp [Signal.act, hslot, hreceived]
  | _ => rcases ha with rfl | rfl <;> simp [Signal.act, hslot]

theorem Recorded.outstanding_iff (hr : Recorded h s) (i : Nat) :
    i ∈ h.outstanding ↔ i ∈ h.enrolled ∧ i ∉ h.reports ∧ s.slot i ≠ .gone := by
  rw [Attendance.mem_outstanding]
  refine and_congr_right fun henrolled => ?_
  rw [hr.left i (hr.lt_length i (.inl henrolled))]
  exact and_comm

theorem Recorded.peers_le (hr : Recorded h s) : s.peers ≤ s.slots.length := by
  have hsubset : h.outstanding ⊆ Finset.range s.slots.length := by
    intro i hi
    exact Finset.mem_range.2 (hr.lt_length i (.inl (Attendance.mem_outstanding.1 hi).1))
  rw [hr.tally.peers]
  exact (Finset.card_le_card hsubset).trans_eq (Finset.card_range _)

theorem Signal.recorded_record (actions : List SignalAction) :
    Recorded (make.record .first actions).2 (make.record .first actions).1 := by
  rw [record_eq_follow]
  exact recorded_make.follow _

/-- The count is right after any actions. Fewer watchers than a machine word can
count never overflow it, for there are no more peers than watchers. -/
theorem Signal.counted_record (actions : List SignalAction) :
    Counted actions (make.record .first actions).1 (make.record .first actions).2 := by
  have hr := recorded_record actions
  have htold := make.untold_record .first actions rfl
  have hfired := make.fired_record .first actions
  generalize make.record .first actions = p at hr htold hfired
  obtain ⟨s, h⟩ := p
  refine ⟨hr.tally.peers, hr.outstanding_iff, hr.peers_le, ⟨hr.tally.nodup, hr.tally.lowered⟩,
    ?_, ?_, ?_, ?_, hr.nodup, ?_⟩
  · rw [hr.tally.peers]
    exact hr.tally.total
  · intro i
    rw [peers_step, peers_clone]
  · intro i hi a ha
    rw [peers_step]
    exact hr.peers_act hi ha (s.act_rule a)
  · intro hne
    exact (hfired (hr.fired hne)).resolve_left nofun
  · intro i hi a ha
    have hne : a ≠ .fireAndWait := by rcases ha with rfl | rfl <;> exact nofun
    obtain ⟨hsame, hanswer⟩ := hr.refused hi ha
    rw [step_eq_of_ne hne]
    refine ⟨?_, hanswer⟩
    simp only [hsame]
    exact if_pos htold

/-- One of two peers reports and stays, and so does a clone of it. The other peer
is counted until it is dropped. -/
theorem Signal.counted_record_cloned :
    let actions := [.register 0, .clone 0, .fire, .tryReceive 0, .tryReceive 2]
    let s := (make.record .first actions).1
    let h := (make.record .first actions).2
    h.reports = [0, 2] ∧ h.lowered = [0] ∧ s.peers = 1 ∧ (s.step (.drop 2)).1.peers = s.peers ∧
      (∃ a ∈ actions, a.Fires) ∧ (s.step (.tryReceive 0)).1 = s := by
  intro actions s h
  have hc : Counted actions s h := counted_record actions
  have hreports : h.reports = [0, 2] := by decide
  have hpeers : s.peers = 1 := hc.peers.trans (by decide)
  have hclone : (s.step (.drop 2)).1.peers = s.peers :=
    hc.uncounted 2 (by decide) (.drop 2) .drop
  have hfires := hc.fired (by rw [hreports]; exact List.cons_ne_nil _ _)
  have hrefused := hc.refused 0 (by rw [hreports]; exact List.mem_cons_self) (.tryReceive 0)
    (.inl rfl)
  exact ⟨hreports, by decide, hpeers, hclone, hfires, hrefused.1⟩

end MetricAgent
