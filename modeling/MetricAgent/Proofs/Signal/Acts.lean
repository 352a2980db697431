import MetricAgent.Signal
import Mathlib.Data.List.GetD

/-!
# What an act on a signal does

`Signal.Act` is `Signal.act` read backwards, with one rule for each way in which
an operation does something, and one for all those that are refused or find
nothing to do. Whoever leaves the count does so by `Signal.depart`, so what a
departure does to the count is said once (`Signal.peers_depart`).
-/

namespace MetricAgent

namespace Signal

variable {s : Signal} {i : Nat} {w : Watcher}

/-! ### Slots -/

theorem lt_length_of_watcher? (h : (s.slot i).watcher? = some w) : i < s.slots.length := by
  refine Nat.lt_of_not_le fun hle => ?_
  rw [slot, List.getD_eq_default _ _ hle] at h
  cases h

theorem slot_ne_gone (h : (s.slot i).watcher? = some w) : s.slot i ≠ .gone := by
  intro hgone
  rw [hgone] at h
  cases h

theorem slot_setSlot (hi : i < s.slots.length) (x : Slot) (j : Nat) :
    (s.setSlot i x).slot j = if j = i then x else s.slot j := by
  simp only [slot, setSlot, List.getD_eq_getElem?_getD, List.getElem?_set]
  by_cases h : j = i
  · subst h
    simp [hi]
  · simp [h, Ne.symm h]

theorem getD_concat (slots : List Slot) (x : Slot) (j : Nat) :
    (slots ++ [x]).getD j .gone = if j = slots.length then x else slots.getD j .gone := by
  rcases Nat.lt_trichotomy j slots.length with h | rfl | h
  · rw [List.getD_append _ _ _ _ h, if_neg (Nat.ne_of_lt h)]
  · simp
  · rw [List.getD_eq_default _ _ (by simpa using Nat.succ_le_of_lt h),
      if_neg (Nat.ne_of_gt h),
      List.getD_eq_default _ _ (Nat.le_of_lt h)]

/-! ### Departures -/

theorem peers_lower (s : Signal) : s.lower.peers = s.peers - 1 := by
  unfold lower
  split
  · omega
  · rfl

@[simp] theorem slots_lower (s : Signal) : s.lower.slots = s.slots := by
  unfold lower
  split <;> rfl

@[simp] theorem fired_lower (s : Signal) : s.lower.fired = s.fired := by
  unfold lower
  split <;> rfl

theorem depart_eq (s : Signal) (w : Watcher) : s.depart w =
    if w.registered ∧ w.departed = false then (s.lower, { w with departed := true })
    else (s, w) := by
  simp [depart]

@[simp] theorem slots_depart (s : Signal) (w : Watcher) : (s.depart w).1.slots = s.slots := by
  rw [depart_eq]
  split <;> simp

@[simp] theorem fired_depart (s : Signal) (w : Watcher) : (s.depart w).1.fired = s.fired := by
  rw [depart_eq]
  split <;> simp

theorem peers_depart (s : Signal) (w : Watcher) : (s.depart w).1.peers =
    if w.registered ∧ w.departed = false then s.peers - 1 else s.peers := by
  rw [depart_eq]
  split
  · exact s.peers_lower
  · rfl

theorem untold_depart (s : Signal) (w : Watcher) :
    (s.depart w).1.untold ≤ s.untold + 1 := by
  rw [depart_eq]
  split
  · unfold lower
    split
    · exact Nat.le_succ _
    · exact Nat.le_refl _
  · exact Nat.le_succ _

theorem received_depart (s : Signal) (w : Watcher) : (s.depart w).2.received = w.received := by
  rw [depart_eq]
  split <;> rfl

/-- Nobody is counted who has departed. -/
theorem not_counted_depart (s : Signal) (w : Watcher) :
    ¬ ((s.depart w).2.registered ∧ (s.depart w).2.departed = false) := by
  rw [depart_eq]
  split
  · simp
  · assumption

/-! ### Frames -/

theorem peers_beginWait (s : Signal) : s.beginWait.peers = s.peers := by
  unfold beginWait
  split <;> rfl

theorem slots_beginWait (s : Signal) : s.beginWait.slots = s.slots := by
  unfold beginWait
  split <;> rfl

theorem fired_beginWait (s : Signal) (h : s.fired = true) : s.beginWait.fired = true := by
  unfold beginWait
  split
  · rfl
  · exact h

theorem untold_beginWait (s : Signal) : s.beginWait.untold = s.untold := by
  unfold beginWait
  split <;> rfl

theorem untold_tell (s : Signal) : s.tell.untold = s.untold - 1 := by
  unfold tell
  split
  · omega
  · rfl

theorem tell_eq (s : Signal) :
    ∃ b n, s.tell = { s with broadcaster := b, untold := n } := by
  unfold tell
  split
  · exact ⟨s.broadcaster, s.untold, rfl⟩
  · exact ⟨_, _, rfl⟩

theorem turn_eq (s : Signal) : ∃ b, s.turn = { s with broadcaster := b } := by
  unfold turn
  split
  · exact ⟨_, rfl⟩
  · exact ⟨_, rfl⟩
  · exact ⟨_, rfl⟩
  all_goals exact ⟨s.broadcaster, rfl⟩

theorem poll_eq (s : Signal) : ∃ b, s.poll = { s with broadcaster := b } := by
  obtain ⟨b₁, h₁⟩ := s.turn_eq
  obtain ⟨b₂, h₂⟩ := s.turn.turn_eq
  obtain ⟨b₃, h₃⟩ := s.turn.turn.turn_eq
  obtain ⟨b₄, h₄⟩ := s.turn.turn.turn.turn_eq
  exact ⟨b₄, by rw [poll, h₄, h₃, h₂, h₁]⟩

/-! ### Rules -/

/-- An act, when it happens, what it leads to and what it answers. -/
inductive Act (s : Signal) : SignalAction → Signal → SignalAnswer → Prop where
  | nothing {a : SignalAction} {answer : SignalAnswer} (unseen : answer ≠ .flag true)
      (unmade : ∀ n, answer ≠ .slot n) (gone : ∀ i, a = .drop i → s.slot i = .gone) :
      Act s a s answer
  | register {i : Nat} {w : Watcher} (idle : s.slot i = .idle w) (unseen : w.received = false) :
      Act s (.register i)
        { s with peers := s.peers + 1, slots := s.slots ++ [.idle ⟨false, true, false⟩] }
        (.slot s.slots.length)
  | clone {i : Nat} {w : Watcher} (idle : s.slot i = .idle w) :
      Act s (.clone i) { s with slots := s.slots ++ [.idle ⟨w.received, false, false⟩] }
        (.slot s.slots.length)
  | observe {i : Nat} {w : Watcher} (idle : s.slot i = .idle w) (unseen : w.received = false)
      (fired : s.fired = true) : Act s (.tryReceive i) (s.observe i w) (.flag true)
  | begin {i : Nat} {w : Watcher} (idle : s.slot i = .idle w) :
      Act s (.receive i) (s.setSlot i (.receiving w)) (.flag false)
  | receive {i : Nat} {w : Watcher} (there : (s.slot i).watcher? = some w)
      (fired : s.fired = true) : Act s (.receive i) (s.release i w) (.flag true)
  | drop {i : Nat} {w : Watcher} (there : (s.slot i).watcher? = some w) :
      Act s (.drop i) (s.release i w) .done
  | fire {a : SignalAction} (fires : a = .fire ∨ a = .dropBroadcaster)
      (ready : s.broadcaster = .ready) :
      Act s a { s with broadcaster := .gone, fired := true } .done
  | wait (there : s.broadcaster ≠ .gone) : Act s .fireAndWait s.beginWait .done

theorem Act.untold {t : Signal} {a : SignalAction} {answer : SignalAnswer}
    (hrule : s.Act a t answer) : t.untold ≤ s.untold + 1 := by
  cases hrule with
  | observe => exact s.untold_depart _
  | receive => exact s.untold_depart _
  | drop => exact s.untold_depart _
  | wait => exact Nat.le_succ_of_le (Nat.le_of_eq s.untold_beginWait)
  | _ => exact Nat.le_succ _

theorem act_fire (s : Signal) {a : SignalAction} (fires : a = .fire ∨ a = .dropBroadcaster) :
    Act s a s.fire.1 s.fire.2 := by
  unfold Signal.fire
  split
  · next hready => exact .fire fires hready
  · exact .nothing nofun nofun (by rcases fires with rfl | rfl <;> exact nofun)

theorem act_rule (s : Signal) (a : SignalAction) : Act s a (s.act a).1 (s.act a).2 := by
  cases a with
  | register i =>
      simp only [act]
      split
      · next w hidle =>
        split
        · exact .nothing nofun nofun nofun
        · next hunseen => exact .register hidle (by simpa using hunseen)
      · exact .nothing nofun nofun nofun
  | clone i =>
      simp only [act]
      split
      · next w hidle => exact .clone hidle
      · exact .nothing nofun nofun nofun
  | tryReceive i =>
      simp only [act]
      split
      · next w hidle =>
        split
        · exact .nothing nofun nofun nofun
        · next hunseen =>
          split
          · next hfired => exact .observe hidle (by simpa using hunseen) hfired
          · exact .nothing nofun nofun nofun
      · exact .nothing nofun nofun nofun
  | receive i =>
      simp only [act]
      split
      · next w hidle =>
        split
        · exact .begin hidle
        · next hnot => exact .receive (by rw [hidle]; rfl) (by simp_all)
      · next w hreceiving =>
        split
        · next hfired => exact .receive (by rw [hreceiving]; rfl) hfired
        · exact .nothing nofun nofun nofun
      · exact .nothing nofun nofun nofun
  | drop i =>
      simp only [act]
      split
      · next w hidle => exact .drop (by rw [hidle]; rfl)
      · next w hreceiving => exact .drop (by rw [hreceiving]; rfl)
      · next hgone => exact .nothing nofun nofun (by rintro _ ⟨⟩; exact hgone)
  | fire => exact s.act_fire (.inl rfl)
  | dropBroadcaster => exact s.act_fire (.inr rfl)
  | fireAndWait =>
      simp only [act]
      split
      · exact .nothing nofun nofun nofun
      · next hthere => exact .wait hthere

end Signal

end MetricAgent
