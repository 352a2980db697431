import MetricAgent.Proofs.Signal.Attendance

/-!
# When a wait ends

A broadcaster that waits stops waiting at a turn at which it looks and nobody is
outstanding, and at no other (`Recorded.turn_gone_iff`). That it does come to
look is what the notifications are for. While it rests, somebody is outstanding,
or has lowered the count and is yet to tell the broadcaster (`Signal.Heard`).

The broadcaster asks for a notification before it looks at the count. A
departure that falls before the look is seen by it, and one that falls after it
is told to a broadcaster that has asked.
-/

namespace MetricAgent

variable {h : Attendance} {s t : Signal} {a : SignalAction} {answer : SignalAnswer}

namespace Signal

/-- A broadcaster that rests has been told of every departure, or will be. -/
def Heard (s : Signal) : Prop := s.broadcaster = .awaiting false → 0 < s.peers ∨ 0 < s.untold

/-! ### Nothing is missed -/

theorem heard_make : make.Heard := nofun

theorem Heard.depart (hs : s.Heard) (w : Watcher) : (s.depart w).1.Heard := by
  rw [depart_eq]
  split
  · intro hrests
    unfold lower at hrests ⊢
    split
    · next hnone =>
      rw [if_pos hnone] at hrests
      exact hs hrests
    · exact .inr (Nat.succ_pos _)
  · exact hs

theorem Heard.rule (hs : s.Heard) (hrule : s.Act a t answer) : t.Heard := by
  cases hrule with
  | register => exact fun _ => .inl (Nat.succ_pos _)
  | observe => exact hs.depart _
  | receive => exact hs.depart _
  | drop => exact hs.depart _
  | fire => exact nofun
  | wait =>
      unfold Signal.beginWait
      split
      · exact nofun
      · exact hs
  | _ => exact hs

theorem notify_ne_resting (b : Broadcaster) : b.notify ≠ .awaiting false := by
  cases b <;> exact nofun

theorem Heard.tell (hs : s.Heard) : s.tell.Heard := by
  unfold Signal.tell
  split
  · exact hs
  · exact fun hrests => absurd hrests (notify_ne_resting _)

theorem Heard.turn (hs : s.Heard) : s.turn.Heard := by
  unfold Signal.turn
  split
  · exact nofun
  · -- It rests only when it has just seen peers.
    intro hrests
    by_cases hpeers : s.peers = 0
    · simp [hpeers] at hrests
    · exact .inl (Nat.pos_of_ne_zero hpeers)
  · exact nofun
  all_goals exact hs

theorem Heard.follow (hs : s.Heard) (h : Attendance) (events : List SignalEvent) :
    (s.follow h events).1.Heard := by
  induction events generalizing s h with
  | nil => exact hs
  | cons e events ih =>
      cases e with
      | act a => exact ih (hs.rule (s.act_rule a)) _
      | tell => exact ih hs.tell h
      | turn => exact ih hs.turn h

/-! ### Turns and polls -/

theorem turn_gone_iff (hthere : s.broadcaster ≠ .gone) :
    s.turn.broadcaster = .gone ↔ (∃ n, s.broadcaster = .looking n) ∧ s.peers = 0 := by
  unfold turn
  split <;> simp_all

/-- A poll ends the wait if no peer is left, unless it finds the broadcaster at
rest. -/
theorem poll_gone_iff (hthere : s.broadcaster ≠ .gone) (hwaits : s.broadcaster ≠ .ready)
    (hrests : s.broadcaster = .awaiting false → s.peers ≠ 0) :
    s.poll.broadcaster = .gone ↔ s.peers = 0 := by
  cases hb : s.broadcaster with
  | ready => exact absurd hb hwaits
  | gone => exact absurd hb hthere
  | asking => by_cases hpeers : s.peers = 0 <;> simp [poll, turn, hb, hpeers]
  | looking n => cases n <;> by_cases hpeers : s.peers = 0 <;> simp [poll, turn, hb, hpeers]
  | awaiting n =>
      cases n with
      | false => simp [poll, turn, hb, hrests hb]
      | true => by_cases hpeers : s.peers = 0 <;> simp [poll, turn, hb, hpeers]

theorem Heard.poll_answer (hs : s.Heard) (hthere : s.broadcaster ≠ .gone) (htold : s.untold = 0) :
    (s.step .fireAndWait).2 = .flag true ↔ s.peers = 0 := by
  rw [step_fireAndWait, if_neg hthere]
  simp only [SignalAnswer.flag.injEq, decide_eq_true_eq]
  rw [← s.peers_beginWait]
  apply poll_gone_iff
  · unfold beginWait
    split
    · exact nofun
    · exact hthere
  · unfold beginWait
    split
    · exact nofun
    · assumption
  · intro hrests hpeers
    have hheard := (hs.rule (.wait hthere)) hrests
    rw [untold_beginWait] at hheard
    omega

end Signal

/-! ### Waits -/

/-- What a broadcaster does that waits where `h` has happened. -/
structure Signal.Awaits (s : Signal) (h : Attendance) : Prop where
  /-- The wait ends at a turn that looks and finds nobody outstanding. -/
  turn : s.broadcaster ≠ .gone →
    (s.turn.broadcaster = .gone ↔ (∃ n, s.broadcaster = .looking n) ∧ h.outstanding = ∅)
  /-- Nothing but a turn ends it. -/
  others : s.broadcaster ≠ .ready → s.broadcaster ≠ .gone →
    s.tell.broadcaster ≠ .gone ∧ ∀ a, (s.act a).1.broadcaster ≠ .gone
  rests : s.broadcaster = .awaiting false → h.outstanding.Nonempty ∨ 0 < s.untold
  poll : s.broadcaster ≠ .gone → s.untold = 0 →
    ((s.step .fireAndWait).2 = .flag true ↔ h.outstanding = ∅)
  /-- When the last is gone, the wait is over as soon as the broadcaster is told. -/
  told : s.broadcaster ≠ .gone → h.outstanding = ∅ →
    ((s.follow h (List.replicate s.untold .tell)).1.step .fireAndWait).2 = .flag true

namespace Signal

theorem notify_gone_iff (b : Broadcaster) : b.notify = .gone ↔ b = .gone := by
  cases b <;> simp [Broadcaster.notify]

theorem tell_gone_iff (s : Signal) : s.tell.broadcaster = .gone ↔ s.broadcaster = .gone := by
  unfold tell
  split
  · rfl
  · exact notify_gone_iff _

theorem broadcaster_depart (s : Signal) (w : Watcher) :
    (s.depart w).1.broadcaster = s.broadcaster := by
  rw [depart_eq]
  split
  · unfold lower
    split <;> rfl
  · rfl

theorem Act.broadcaster (hrule : s.Act a t answer) (hwaits : s.broadcaster ≠ .ready) :
    t.broadcaster = s.broadcaster := by
  cases hrule with
  | observe => exact s.broadcaster_depart _
  | receive => exact s.broadcaster_depart _
  | drop => exact s.broadcaster_depart _
  | fire _ hready => exact absurd hready hwaits
  | wait =>
      unfold beginWait
      rw [if_neg hwaits]
  | _ => rfl

/-- What is left to tell can be told, and changes nothing else of note. -/
theorem follow_tell (n : Nat) (s : Signal) (h : Attendance) (hn : s.untold = n) :
    let p := s.follow h (List.replicate n .tell)
    p.1.untold = 0 ∧ p.2 = h ∧ (p.1.broadcaster = .gone ↔ s.broadcaster = .gone) := by
  induction n generalizing s with
  | zero => exact ⟨hn, rfl, Iff.rfl⟩
  | succ n ih =>
      obtain ⟨huntold, hsame, hgone⟩ := ih s.tell (by rw [untold_tell, hn]; rfl)
      exact ⟨huntold, hsame, hgone.trans s.tell_gone_iff⟩

end Signal

theorem Recorded.peers_eq_zero_iff (hr : Recorded h s) : s.peers = 0 ↔ h.outstanding = ∅ := by
  rw [hr.tally.peers, Finset.card_eq_zero]

theorem Recorded.awaits (hr : Recorded h s) (hs : s.Heard) : s.Awaits h := by
  refine ⟨?_, ?_, ?_, ?_, ?_⟩
  · intro hthere
    rw [Signal.turn_gone_iff hthere, hr.peers_eq_zero_iff]
  · intro hwaits hthere
    refine ⟨fun hgone => hthere (s.tell_gone_iff.1 hgone), fun a hgone => hthere ?_⟩
    exact ((s.act_rule a).broadcaster hwaits).symm.trans hgone
  · intro hrests
    refine (hs hrests).imp_left fun hpeers => ?_
    rw [hr.tally.peers] at hpeers
    exact Finset.card_pos.1 hpeers
  · intro hthere htold
    rw [hs.poll_answer hthere htold, hr.peers_eq_zero_iff]
  · intro hthere hnone
    have hr' := hr.follow (List.replicate s.untold .tell)
    have hs' := hs.follow h (List.replicate s.untold .tell)
    obtain ⟨htold, hsame, hgone⟩ := s.follow_tell s.untold h rfl
    rw [hsame] at hr'
    rw [hs'.poll_answer (fun h => hthere (hgone.1 h)) htold, hr'.peers_eq_zero_iff]
    exact hnone

namespace Signal

theorem awaits_follow (events : List SignalEvent) :
    (make.follow .first events).1.Awaits (make.follow .first events).2 :=
  (recorded_make.follow events).awaits (heard_make.follow _ events)

/-- Between operations, a poll ends the wait just when nobody is outstanding. And
whatever moves of others fall between the turns of a poll, the wait does not end
while somebody is outstanding, and does not go on unheard when nobody is. -/
theorem wait_ends_iff_none_outstanding :
    (∀ actions, (make.record .first actions).1.broadcaster ≠ .gone →
      (((make.record .first actions).1.step .fireAndWait).2 = .flag true ↔
        (make.record .first actions).2.outstanding = ∅)) ∧
    ∀ events, (make.follow .first events).1.Awaits (make.follow .first events).2 := by
  refine ⟨fun actions hthere => ?_, awaits_follow⟩
  have htold := make.untold_record .first actions rfl
  rw [record_eq_follow] at hthere htold ⊢
  exact (awaits_follow _).poll hthere htold

/-- One who registers after the signal was fired is waited for, and a clone is not.
When the last peer leaves after the look, the broadcaster rests until it is told,
and then the wait is over. -/
theorem wait_ends_iff_none_outstanding_late :
    ((make.record .first [.fireAndWait, .register 0, .drop 0]).1.step .fireAndWait).2 ≠
        .flag true ∧
      ((make.record .first [.register 0, .clone 0, .drop 0, .drop 1]).1.step .fireAndWait).2 =
        .flag true ∧
      let p := make.follow .first [.act .fireAndWait, .turn, .turn, .act (.drop 0)]
      p.1.broadcaster = .awaiting false ∧ p.1.turn.broadcaster ≠ .gone ∧ 0 < p.1.untold ∧
        ((p.1.follow p.2 (List.replicate p.1.untold .tell)).1.step .fireAndWait).2 =
          .flag true := by
  obtain ⟨hpoll, hawaits⟩ := wait_ends_iff_none_outstanding
  refine ⟨?_, ?_, ?_⟩
  · intro hdone
    exact absurd ((hpoll _ (by decide)).1 hdone) (by decide)
  · exact (hpoll _ (by decide)).2 (by decide)
  · intro p
    have hp := hawaits [.act .fireAndWait, .turn, .turn, .act (.drop 0)]
    have hrests : p.1.broadcaster = .awaiting false := by decide
    have hnone : p.2.outstanding = ∅ := by decide
    have hthere : p.1.broadcaster ≠ .gone := by rw [hrests]; exact nofun
    refine ⟨hrests, fun hgone => ?_, ?_, hp.told hthere hnone⟩
    · obtain ⟨⟨n, hlooks⟩, -⟩ := (hp.turn hthere).1 hgone
      exact absurd (hrests.symm.trans hlooks) nofun
    · exact (hp.rests hrests).resolve_left (Finset.not_nonempty_iff_eq_empty.2 hnone)

end Signal

end MetricAgent
