import MetricAgent.Proofs.Signal.Acts
import Mathlib.Data.Finset.Card
import Mathlib.Data.List.Nodup

/-!
# Who is outstanding

An `Attendance` is what a history of a signal tells about its watchers, read off
the operations and their answers alone: who was enrolled with the broadcaster,
who reported that it observed the signal, and who is no more. Those enrolled who
have done neither are outstanding, and they are what the broadcaster counts
(`Recorded.tally`). The marks that a watcher carries only say where it stands in
this (`Knows`).

Watchers are named by their slots, which are never used twice.
-/

namespace MetricAgent

/-- The single moves of those who use a signal side by side. -/
inductive SignalEvent where
  | act (a : SignalAction)
  | tell
  | turn

def SignalAction.slot? : SignalAction → Option Nat
  | .register i | .clone i | .tryReceive i | .receive i | .drop i => some i
  | .fire | .dropBroadcaster | .fireAndWait => none

/-- The watchers in a history, by their slots. -/
structure Attendance where
  /-- Made with the broadcaster or by registering. -/
  enrolled : Finset Nat
  /-- Those who reported that they observed the signal, in order. -/
  reports : List Nat
  left : Finset Nat
  /-- Those who lowered the count, in order. -/
  lowered : List Nat

namespace Attendance

/-- One watcher is made with the broadcaster. -/
def first : Attendance := ⟨{0}, [], ∅, []⟩

/-- Those enrolled who are there and have not reported. -/
def outstanding (h : Attendance) : Finset Nat :=
  h.enrolled.filter fun i => i ∉ h.left ∧ i ∉ h.reports

/-- Takes note of an action. A watcher that has reported, and then receives, is
done at once and reports nothing. -/
def note (h : Attendance) (s : Signal) (a : SignalAction) (after : Signal × SignalAnswer) :
    Attendance where
  enrolled :=
    match a, after.2 with
    | .register _, .slot n => insert n h.enrolled
    | _, _ => h.enrolled
  reports :=
    match a, after.2 with
    | .tryReceive i, .flag true => h.reports ++ [i]
    | .receive i, .flag true => if i ∈ h.reports then h.reports else h.reports ++ [i]
    | _, _ => h.reports
  left :=
    match a, after.2 with
    | .receive i, .flag true => insert i h.left
    | .drop i, _ => if s.slot i = .gone then h.left else insert i h.left
    | _, _ => h.left
  lowered := if after.1.peers < s.peers then h.lowered ++ a.slot?.toList else h.lowered

end Attendance

namespace Signal

/-- Follows operations that nothing disturbs, and takes note of them. -/
def record (s : Signal) (h : Attendance) : List SignalAction → Signal × Attendance
  | [] => (s, h)
  | a :: actions => (s.step a).1.record (h.note s a (s.step a)) actions

/-- Follows single moves, and takes note of the actions. -/
def follow (s : Signal) (h : Attendance) : List SignalEvent → Signal × Attendance
  | [] => (s, h)
  | .act a :: events => (s.act a).1.follow (h.note s a (s.act a)) events
  | .tell :: events => s.tell.follow h events
  | .turn :: events => s.turn.follow h events

end Signal

variable {h : Attendance} {s : Signal} {i p : Nat} {w : Watcher}

/-! ### Notes -/

namespace Attendance

theorem mem_outstanding {j : Nat} :
    j ∈ h.outstanding ↔ j ∈ h.enrolled ∧ j ∉ h.left ∧ j ∉ h.reports := Finset.mem_filter

theorem note_nothing {a : SignalAction} {t : Signal} {answer : SignalAnswer}
    (hpeers : s.peers ≤ t.peers) (hunseen : answer ≠ .flag true) (hunmade : ∀ n, answer ≠ .slot n)
    (hgone : ∀ i, a = .drop i → s.slot i = .gone) : h.note s a (t, answer) = h := by
  unfold note
  simp only [if_neg (Nat.not_lt.2 hpeers)]
  cases a with
  | drop i => simp [hgone i rfl]
  | _ => cases answer <;> simp_all

theorem note_register {n : Nat} {t : Signal} (hpeers : s.peers ≤ t.peers) :
    h.note s (.register i) (t, .slot n) = { h with enrolled := insert n h.enrolled } := by
  simp [note, Nat.not_lt.2 hpeers]

theorem note_clone {n : Nat} {t : Signal} (hpeers : s.peers ≤ t.peers) :
    h.note s (.clone i) (t, .slot n) = h := by
  simp [note, Nat.not_lt.2 hpeers]

theorem outstanding_enroll {n : Nat} (hleft : n ∉ h.left) (hreports : n ∉ h.reports) :
    ({ h with enrolled := insert n h.enrolled } : Attendance).outstanding =
      insert n h.outstanding := by
  unfold outstanding
  rw [Finset.filter_insert, if_pos ⟨hleft, hreports⟩]

/-- What is noted when the watcher `w` at `i` leaves the count and `x` is put in
its place. -/
structure Departs (h : Attendance) (s : Signal) (i : Nat) (w : Watcher) (x : Slot)
    (k : Attendance) : Prop where
  enrolled : k.enrolled = h.enrolled
  left : ∀ j, j ∈ k.left ↔ j ∈ h.left ∨ j = i ∧ x = .gone
  reports : k.reports = h.reports ∨ k.reports = h.reports ++ [i] ∧ i ∉ h.reports ∧ s.fired
  /-- It reports unless it is no more. -/
  done : i ∈ k.left ∨ i ∈ k.reports
  lowered : k.lowered = if (s.depart w).1.peers < s.peers then h.lowered ++ [i] else h.lowered

namespace Departs

variable {x : Slot} {k : Attendance}

theorem mem_reports (hk : h.Departs s i w x k) {j : Nat} (hj : j ∈ k.reports) :
    j ∈ h.reports ∨ j = i := by
  rcases hk.reports with hsame | ⟨hmore, -, -⟩
  · exact .inl (hsame ▸ hj)
  · rw [hmore, List.mem_append, List.mem_singleton] at hj
    exact hj

theorem mem_reports_of_mem (hk : h.Departs s i w x k) {j : Nat} (hj : j ∈ h.reports) :
    j ∈ k.reports := by
  rcases hk.reports with hsame | ⟨hmore, -, -⟩
  · exact hsame ▸ hj
  · exact hmore ▸ List.mem_append_left _ hj

theorem nodup (hk : h.Departs s i w x k) (hnodup : h.reports.Nodup) : k.reports.Nodup := by
  rcases hk.reports with hsame | ⟨hmore, hnew, -⟩
  · exact hsame ▸ hnodup
  · rw [hmore, ← List.concat_eq_append]
    exact List.Nodup.concat hnew hnodup

theorem outstanding (hk : h.Departs s i w x k) : k.outstanding = h.outstanding.erase i := by
  ext j
  rw [Finset.mem_erase, mem_outstanding, mem_outstanding, hk.enrolled]
  constructor
  · rintro ⟨hj, hleft, hreports⟩
    refine ⟨?_, hj, fun hmem => hleft ((hk.left j).2 (.inl hmem)), fun hmem => hreports ?_⟩
    · rintro rfl
      exact hk.done.elim hleft hreports
    · exact hk.mem_reports_of_mem hmem
  · rintro ⟨hji, hj, hleft, hreports⟩
    refine ⟨hj, fun hmem => ?_, fun hmem => ?_⟩
    · exact ((hk.left j).1 hmem).elim hleft fun h => hji h.1
    · exact (hk.mem_reports hmem).elim hreports hji

end Departs

theorem departs_observe (hnew : i ∉ h.reports) (hfired : s.fired = true) {x : Slot}
    (hx : x ≠ .gone) : h.Departs s i { w with received := true } x
      (h.note s (.tryReceive i) (s.observe i w, .flag true)) where
  enrolled := rfl
  left _ := (or_iff_left fun h => hx h.2).symm
  reports := .inr ⟨rfl, hnew, hfired⟩
  done := .inr (List.mem_append_right _ (List.mem_singleton_self i))
  lowered := rfl

theorem departs_receive (hfired : s.fired = true) :
    h.Departs s i w .gone (h.note s (.receive i) (s.release i w, .flag true)) where
  enrolled := rfl
  left j := by
    change j ∈ insert i h.left ↔ _
    rw [Finset.mem_insert, or_comm]
    simp
  reports := by
    by_cases hreports : i ∈ h.reports
    · exact .inl (if_pos hreports)
    · exact .inr ⟨if_neg hreports, hreports, hfired⟩
  done := .inl (Finset.mem_insert_self i _)
  lowered := rfl

theorem departs_drop (hpresent : s.slot i ≠ .gone) :
    h.Departs s i w .gone (h.note s (.drop i) (s.release i w, .done)) := by
  have hleft : (h.note s (.drop i) (s.release i w, .done)).left = insert i h.left :=
    if_neg hpresent
  refine ⟨rfl, fun j => ?_, .inl rfl, .inl ?_, rfl⟩
  · rw [hleft, Finset.mem_insert, or_comm]
    simp
  · rw [hleft]
    exact Finset.mem_insert_self i _

end Attendance

/-! ### The count -/

/-- The count is that of the outstanding watchers, and each of the others who
were enrolled has lowered it once. -/
structure Tally (p : Nat) (h : Attendance) : Prop where
  peers : p = h.outstanding.card
  nodup : h.lowered.Nodup
  lowered : ∀ i ∈ h.lowered, i ∈ h.enrolled ∧ i ∉ h.outstanding
  total : h.outstanding.card + h.lowered.length = h.enrolled.card

theorem Tally.congr (ht : Tally p h) {k : Attendance} (henrolled : k.enrolled = h.enrolled)
    (houtstanding : k.outstanding = h.outstanding) (hlowered : k.lowered = h.lowered) :
    Tally p k := by
  obtain ⟨hpeers, hnodup, hmem, htotal⟩ := ht
  rw [← henrolled, ← houtstanding, ← hlowered] at *
  exact ⟨hpeers, hnodup, hmem, htotal⟩

theorem Tally.leave (ht : Tally p h) {k : Attendance} (henrolled : k.enrolled = h.enrolled)
    (houtstanding : k.outstanding = h.outstanding.erase i)
    (hlowered : k.lowered =
      if (if i ∈ h.outstanding then p - 1 else p) < p then h.lowered ++ [i] else h.lowered) :
    Tally (if i ∈ h.outstanding then p - 1 else p) k := by
  by_cases hi : i ∈ h.outstanding
  · have hpos : 0 < p := ht.peers ▸ Finset.card_pos.2 ⟨i, hi⟩
    have hcard : k.outstanding.card = p - 1 := by
      rw [houtstanding, Finset.card_erase_of_mem hi, ht.peers]
    rw [if_pos hi, if_pos (Nat.sub_lt hpos Nat.one_pos)] at hlowered
    rw [if_pos hi]
    refine ⟨hcard.symm, ?_, ?_, ?_⟩
    · rw [hlowered, ← List.concat_eq_append]
      exact List.Nodup.concat (fun hmem => (ht.lowered i hmem).2 hi) ht.nodup
    · intro j hj
      rw [hlowered, List.mem_append, List.mem_singleton] at hj
      rw [henrolled, houtstanding]
      rcases hj with hj | rfl
      · obtain ⟨hj, hout⟩ := ht.lowered j hj
        exact ⟨hj, fun h => hout (Finset.mem_of_mem_erase h)⟩
      · exact ⟨(Finset.mem_filter.1 hi).1, Finset.notMem_erase _ _⟩
    · have htotal := ht.total
      rw [← ht.peers] at htotal
      rw [hcard, hlowered, henrolled, List.length_append, List.length_singleton]
      omega
  · rw [if_neg hi, if_neg (Nat.lt_irrefl p)] at hlowered
    rw [if_neg hi]
    rw [Finset.erase_eq_of_notMem hi] at houtstanding
    exact ht.congr henrolled houtstanding hlowered

theorem Tally.enroll (ht : Tally p h) {k : Attendance} (hi : i ∉ h.enrolled)
    (henrolled : k.enrolled = insert i h.enrolled)
    (houtstanding : k.outstanding = insert i h.outstanding) (hlowered : k.lowered = h.lowered) :
    Tally (p + 1) k := by
  have hout : i ∉ h.outstanding := fun h => hi (Finset.mem_filter.1 h).1
  have hcard : k.outstanding.card = p + 1 := by
    rw [houtstanding, Finset.card_insert_of_notMem hout, ht.peers]
  refine ⟨hcard.symm, hlowered ▸ ht.nodup, ?_, ?_⟩
  · intro j hj
    rw [hlowered] at hj
    obtain ⟨hmem, hnot⟩ := ht.lowered j hj
    have hne : j ≠ i := fun heq => hi (heq ▸ hmem)
    rw [henrolled, houtstanding]
    exact ⟨Finset.mem_insert_of_mem hmem, fun h => hnot (Finset.mem_of_mem_insert_of_ne h hne)⟩
  · have htotal := ht.total
    rw [← ht.peers] at htotal
    rw [hcard, hlowered, henrolled, Finset.card_insert_of_notMem hi]
    omega

/-! ### The watchers -/

/-- What the marks of a watcher say about it. -/
structure Knows (h : Attendance) (fired : Bool) (i : Nat) (w : Watcher) : Prop where
  counted : i ∈ h.outstanding ↔ w.registered ∧ w.departed = false
  received : i ∈ h.reports → w.received
  fired : w.received → fired

/-- A signal whose history has been noted. -/
structure Recorded (h : Attendance) (s : Signal) : Prop where
  tally : Tally s.peers h
  lt_length : ∀ i, i ∈ h.enrolled ∨ i ∈ h.left ∨ i ∈ h.reports → i < s.slots.length
  left : ∀ i < s.slots.length, i ∈ h.left ↔ s.slot i = .gone
  nodup : h.reports.Nodup
  fired : h.reports ≠ [] → s.fired
  knows : ∀ i w, (s.slot i).watcher? = some w → Knows h s.fired i w

theorem recorded_make : Recorded .first .make := by
  refine ⟨⟨rfl, .nil, nofun, rfl⟩, ?_, ?_, .nil, nofun, ?_⟩
  · rintro i (hi | hi | hi)
    · exact Finset.mem_singleton.1 hi ▸ Nat.one_pos
    · cases hi
    · cases hi
  · intro i hi
    obtain rfl : i = 0 := Nat.lt_one_iff.1 hi
    exact iff_of_false (Finset.notMem_empty 0) nofun
  · intro i w hw
    have hi : i = 0 := by
      have hlt := Signal.lt_length_of_watcher? hw
      exact Nat.lt_one_iff.1 hlt
    subst hi
    cases hw
    exact ⟨by decide, nofun, nofun⟩

/-- What a signal shows to a history. -/
theorem Recorded.congr (hr : Recorded h s) {t : Signal} (hpeers : t.peers = s.peers)
    (hslots : t.slots = s.slots) (hfired : s.fired → t.fired) : Recorded h t := by
  have hslot : ∀ i, t.slot i = s.slot i := fun i => by rw [Signal.slot, Signal.slot, hslots]
  refine ⟨hpeers ▸ hr.tally, hslots ▸ hr.lt_length, ?_, hr.nodup, fun hne => hfired (hr.fired hne),
    ?_⟩
  · intro i hi
    rw [hslot]
    exact hr.left i (hslots ▸ hi)
  intro i w hw
  rw [hslot] at hw
  obtain ⟨hcounted, hreceived, hknown⟩ := hr.knows i w hw
  exact ⟨hcounted, hreceived, fun h => hfired (hknown h)⟩

/-! ### Acts -/

/-- The watcher in a slot leaves the count. -/
theorem Recorded.depart (hr : Recorded h s) {v : Watcher} (hthere : (s.slot i).watcher? = some v)
    (hcounted : i ∈ h.outstanding ↔ w.registered ∧ w.departed = false) {k : Attendance} {x : Slot}
    (hk : h.Departs s i w x k) (hx : ∀ u, x.watcher? = some u → Knows k s.fired i u) :
    Recorded k ((s.depart w).1.setSlot i x) := by
  have hi := Signal.lt_length_of_watcher? hthere
  have hlength : ((s.depart w).1.setSlot i x).slots.length = s.slots.length := by
    simp [Signal.setSlot]
  have hslot : ∀ j, ((s.depart w).1.setSlot i x).slot j = if j = i then x else s.slot j := by
    intro j
    rw [Signal.slot_setSlot (by simpa using hi), Signal.slot, Signal.slot, Signal.slots_depart]
  have hfired : ((s.depart w).1.setSlot i x).fired = s.fired := s.fired_depart w
  refine ⟨?_, ?_, ?_, hk.nodup hr.nodup, ?_, ?_⟩
  · have hpeers : (s.depart w).1.peers = if i ∈ h.outstanding then s.peers - 1 else s.peers := by
      rw [Signal.peers_depart]
      exact if_congr hcounted.symm rfl rfl
    have hlowered := hk.lowered
    rw [hpeers] at hlowered
    have htally := hr.tally.leave hk.enrolled hk.outstanding hlowered
    rw [← hpeers] at htally
    exact htally
  · intro j hj
    rw [hlength]
    rcases hj with hj | hj | hj
    · exact hr.lt_length j (.inl (hk.enrolled ▸ hj))
    · rcases (hk.left j).1 hj with hj | ⟨rfl, -⟩
      · exact hr.lt_length j (.inr (.inl hj))
      · exact hi
    · rcases hk.mem_reports hj with hj | rfl
      · exact hr.lt_length j (.inr (.inr hj))
      · exact hi
  · intro j hj
    rw [hlength] at hj
    rw [hk.left, hslot, hr.left j hj]
    by_cases hji : j = i
    · subst hji
      rw [if_pos rfl]
      exact ⟨fun h => (h.resolve_left (Signal.slot_ne_gone hthere)).2, fun h => .inr ⟨rfl, h⟩⟩
    · rw [if_neg hji]
      exact ⟨fun h => h.resolve_right fun h => hji h.1, .inl⟩
  · intro hne
    rw [hfired]
    rcases hk.reports with hsame | ⟨-, -, hfired⟩
    · exact hr.fired (hsame ▸ hne)
    · exact hfired
  · intro j u hu
    rw [hslot] at hu
    rw [hfired]
    by_cases hji : j = i
    · subst hji
      rw [if_pos rfl] at hu
      exact hx u hu
    · rw [if_neg hji] at hu
      obtain ⟨hcount, hreceived, hknown⟩ := hr.knows j u hu
      refine ⟨?_, fun h => hreceived ((hk.mem_reports h).resolve_right hji), hknown⟩
      rw [hk.outstanding, Finset.mem_erase]
      exact (and_iff_right hji).trans hcount

/-- A watcher is added in a new slot. -/
theorem Recorded.add (hr : Recorded h s) {k : Attendance} (hk : k.reports = h.reports)
    (hleft : k.left = h.left) (henrolled : ∀ j ∈ k.enrolled, j ∈ h.enrolled ∨ j = s.slots.length)
    (houtstanding : ∀ j ≠ s.slots.length, j ∈ k.outstanding ↔ j ∈ h.outstanding)
    (htally : Tally p k) (hnew : s.slots.length ∈ k.outstanding ↔ w.registered ∧ w.departed = false)
    (hreceived : w.received → s.fired) :
    Recorded k { s with peers := p, slots := s.slots ++ [.idle w] } := by
  have hlength : (s.slots ++ [Slot.idle w]).length = s.slots.length + 1 := by simp
  refine ⟨htally, ?_, ?_, hk ▸ hr.nodup, fun hne => hr.fired (hk ▸ hne), ?_⟩
  · intro j hj
    simp only [hlength]
    rw [hk, hleft] at hj
    rcases hj with hj | hj
    · rcases henrolled j hj with hj | rfl
      · exact Nat.lt_succ_of_lt (hr.lt_length j (.inl hj))
      · exact Nat.lt_succ_self _
    · exact Nat.lt_succ_of_lt (hr.lt_length j (.inr hj))
  · intro j hj
    simp only [hlength] at hj
    simp only [Signal.slot, Signal.getD_concat, hleft]
    by_cases hji : j = s.slots.length
    · rw [if_pos hji]
      refine iff_of_false (fun hmem => ?_) (by simp)
      exact absurd (hr.lt_length j (.inr (.inl hmem))) (Nat.not_lt.2 (Nat.le_of_eq hji.symm))
    · rw [if_neg hji]
      exact hr.left j (by omega)
  · intro j v hv
    simp only [Signal.slot, Signal.getD_concat] at hv
    by_cases hj : j = s.slots.length
    · subst hj
      rw [if_pos rfl] at hv
      cases hv
      refine ⟨hnew, fun hmem => ?_, hreceived⟩
      rw [hk] at hmem
      exact absurd (hr.lt_length _ (.inr (.inr hmem))) (Nat.lt_irrefl _)
    · rw [if_neg hj] at hv
      obtain ⟨hcount, hreceived, hknown⟩ := hr.knows j v hv
      exact ⟨(houtstanding j hj).trans hcount, fun hmem => hreceived (hk ▸ hmem), hknown⟩

theorem Recorded.register (hr : Recorded h s) :
    Recorded { h with enrolled := insert s.slots.length h.enrolled }
      { s with peers := s.peers + 1, slots := s.slots ++ [.idle ⟨false, true, false⟩] } := by
  have hnew := fun hmem => Nat.lt_irrefl s.slots.length (hr.lt_length _ hmem)
  have houtstanding := h.outstanding_enroll (fun hmem => hnew (.inr (.inl hmem)))
    (fun hmem => hnew (.inr (.inr hmem)))
  refine hr.add (w := ⟨false, true, false⟩) rfl rfl ?_ ?_ ?_ ?_ (by simp)
  · exact fun j hj => (Finset.mem_insert.1 hj).symm
  · intro j hj
    rw [houtstanding, Finset.mem_insert]
    exact or_iff_right hj
  · exact hr.tally.enroll (fun hmem => hnew (.inl hmem)) rfl houtstanding rfl
  · rw [houtstanding]
    exact iff_of_true (Finset.mem_insert_self _ _) ⟨rfl, rfl⟩

theorem Recorded.clone (hr : Recorded h s) (hidle : s.slot i = .idle w) :
    Recorded h { s with slots := s.slots ++ [.idle ⟨w.received, false, false⟩] } := by
  refine hr.add (w := ⟨_, false, false⟩) rfl rfl (fun j => .inl) (fun j _ => Iff.rfl) hr.tally
    (iff_of_false (fun hmem => ?_) (by simp)) (hr.knows i w (by rw [hidle]; rfl)).fired
  exact Nat.lt_irrefl _ (hr.lt_length _ (.inl (Attendance.mem_outstanding.1 hmem).1))

/-- A watcher that begins to receive stays where it was. -/
theorem Recorded.begin (hr : Recorded h s) (hidle : s.slot i = .idle w) :
    Recorded h (s.setSlot i (.receiving w)) := by
  have hthere : (s.slot i).watcher? = some w := by rw [hidle]; rfl
  have hslot := Signal.slot_setSlot (Signal.lt_length_of_watcher? hthere) (.receiving w)
  have hlength : (s.setSlot i (.receiving w)).slots.length = s.slots.length := by
    simp [Signal.setSlot]
  refine ⟨hr.tally, hlength ▸ hr.lt_length, ?_, hr.nodup, hr.fired, ?_⟩
  · intro j hj
    rw [hlength] at hj
    rw [hslot, hr.left j hj]
    by_cases hji : j = i
    · subst hji
      simp [hidle]
    · rw [if_neg hji]
  · intro j v hv
    rw [hslot] at hv
    by_cases hji : j = i
    · subst hji
      rw [if_pos rfl] at hv
      exact hr.knows j v (hthere.trans hv)
    · rw [if_neg hji] at hv
      exact hr.knows j v hv

theorem Recorded.observe (hr : Recorded h s) (hidle : s.slot i = .idle w)
    (hunseen : w.received = false) (hfired : s.fired = true) :
    Recorded (h.note s (.tryReceive i) (s.observe i w, .flag true)) (s.observe i w) := by
  have hthere : (s.slot i).watcher? = some w := by rw [hidle]; rfl
  have hknows := hr.knows i w hthere
  have hnew : i ∉ h.reports := fun hmem => by simp [hknows.received hmem] at hunseen
  have hk := h.departs_observe (s := s) (w := w) hnew hfired
    (x := .idle (s.depart { w with received := true }).2) (by simp)
  refine hr.depart (w := { w with received := true }) hthere hknows.counted hk ?_
  rintro _ ⟨⟩
  refine ⟨iff_of_false (fun hout => ?_) (s.not_counted_depart _), fun _ => s.received_depart _,
    fun _ => hfired⟩
  rw [hk.outstanding] at hout
  exact Finset.notMem_erase _ _ hout

theorem Recorded.rule (hr : Recorded h s) {a : SignalAction} {t : Signal} {answer : SignalAnswer}
    (hrule : s.Act a t answer) : Recorded (h.note s a (t, answer)) t := by
  cases hrule with
  | nothing hunseen hunmade hgone =>
      rw [Attendance.note_nothing (Nat.le_refl _) hunseen hunmade hgone]
      exact hr
  | register hidle hunseen =>
      rw [Attendance.note_register (by exact Nat.le_succ _)]
      exact hr.register
  | clone hidle =>
      rw [Attendance.note_clone (by exact Nat.le_refl _)]
      exact hr.clone hidle
  | observe hidle hunseen hfired => exact hr.observe hidle hunseen hfired
  | begin hidle =>
      rw [Attendance.note_nothing (by exact Nat.le_refl _) (by simp) (by simp) (by simp)]
      exact hr.begin hidle
  | @receive i w hthere hfired =>
      exact hr.depart hthere (hr.knows i w hthere).counted (h.departs_receive hfired)
        (by simp [Slot.watcher?])
  | @drop i w hthere =>
      exact hr.depart hthere (hr.knows i w hthere).counted
        (h.departs_drop (Signal.slot_ne_gone hthere)) (by simp [Slot.watcher?])
  | fire hfires hready =>
      rw [Attendance.note_nothing (by exact Nat.le_refl _) (by simp) (by simp)]
      · exact hr.congr rfl rfl fun _ => rfl
      · rcases hfires with rfl | rfl <;> simp
  | wait hthere =>
      have hpeers := Nat.le_of_eq s.peers_beginWait.symm
      rw [Attendance.note_nothing hpeers (by simp) (by simp) (by simp)]
      exact hr.congr s.peers_beginWait s.slots_beginWait s.fired_beginWait

/-! ### Histories -/

theorem Recorded.act (hr : Recorded h s) (a : SignalAction) :
    Recorded (h.note s a (s.act a)) (s.act a).1 := hr.rule (s.act_rule a)

theorem Recorded.tell (hr : Recorded h s) : Recorded h s.tell := by
  obtain ⟨b, n, htell⟩ := s.tell_eq
  exact htell ▸ hr.congr rfl rfl id

theorem Recorded.turn (hr : Recorded h s) : Recorded h s.turn := by
  obtain ⟨b, hturn⟩ := s.turn_eq
  exact hturn ▸ hr.congr rfl rfl id

theorem Recorded.follow (hr : Recorded h s) (events : List SignalEvent) :
    Recorded (s.follow h events).2 (s.follow h events).1 := by
  induction events generalizing s h with
  | nil => exact hr
  | cons e events ih =>
      cases e with
      | act a => exact ih (hr.act a)
      | tell => exact ih hr.tell
      | turn => exact ih hr.turn

namespace Attendance

theorem note_congr {a : SignalAction} {t u : Signal} {answer : SignalAnswer}
    (hpeers : t.peers = u.peers) : h.note s a (t, answer) = h.note s a (u, answer) := by
  simp only [note, hpeers]

theorem note_fireAndWait (after : Signal × SignalAnswer) : h.note s .fireAndWait after = h := by
  simp [note, SignalAction.slot?]

end Attendance

def SignalAction.events : SignalAction → List SignalEvent
  | .fireAndWait => [.act .fireAndWait, .turn, .turn, .turn, .turn]
  | a => [.act a, .tell]

namespace Signal

theorem step_eq_of_ne {a : SignalAction} (ha : a ≠ .fireAndWait) :
    s.step a = ((s.act a).1.tell, (s.act a).2) := by
  cases a with
  | fireAndWait => exact absurd rfl ha
  | _ => rfl

theorem step_fireAndWait (s : Signal) : s.step .fireAndWait =
    if s.broadcaster = .gone then (s, .invalid)
    else (s.beginWait.poll, .flag (s.beginWait.poll.broadcaster = .gone)) := by
  simp only [step, act]
  split <;> rfl

/-- An operation that nothing disturbs leaves nothing to tell. -/
theorem untold_step (s : Signal) (a : SignalAction) (htold : s.untold = 0) :
    (s.step a).1.untold = 0 := by
  by_cases ha : a = .fireAndWait
  · subst ha
    obtain ⟨b, hpoll⟩ := s.beginWait.poll_eq
    rw [step_fireAndWait]
    split
    · exact htold
    · rw [hpoll]
      exact s.untold_beginWait.trans htold
  · have hact := (s.act_rule a).untold
    rw [step_eq_of_ne ha, untold_tell]
    omega

theorem untold_record (s : Signal) (h : Attendance) (actions : List SignalAction)
    (htold : s.untold = 0) : (s.record h actions).1.untold = 0 := by
  induction actions generalizing s h with
  | nil => exact htold
  | cons a actions ih => exact ih _ _ (s.untold_step a htold)

theorem turn_gone (hgone : s.broadcaster = .gone) : s.turn = s := by
  simp [turn, hgone]

theorem record_eq_follow (s : Signal) (h : Attendance) (actions : List SignalAction) :
    s.record h actions = s.follow h (actions.flatMap SignalAction.events) := by
  induction actions generalizing s h with
  | nil => rfl
  | cons a actions ih =>
      rw [record, ih, List.flatMap_cons]
      by_cases ha : a = .fireAndWait
      · subst ha
        simp only [SignalAction.events, List.cons_append, List.nil_append, follow,
          Attendance.note_fireAndWait, step_fireAndWait, act]
        split
        · next hgone => simp only [turn_gone hgone]
        · rfl
      · have hevents : a.events = [.act a, .tell] := by
          cases a with
          | fireAndWait => exact absurd rfl ha
          | _ => rfl
        obtain ⟨b, n, htell⟩ := (s.act a).1.tell_eq
        simp only [hevents, List.cons_append, List.nil_append, follow, step_eq_of_ne ha]
        rw [Attendance.note_congr (u := (s.act a).1) (by rw [htell])]

end Signal

end MetricAgent
