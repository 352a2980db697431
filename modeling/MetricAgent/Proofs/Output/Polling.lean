import MetricAgent.Proofs.Output.Wakes

/-!
# No wake is lost

A wake is stored when the length of the buffer reaches a multiple of the batch
size, so a length that jumped over a multiple would lose one. It never does. A
metric that comes in adds one to the length or takes the place of another, and
all that a batch brings back when the sink has refused it was displaced, for
which the buffer must have been full (`OutputHistory.Packed`). So no write makes
the buffer longer, and the metric that completes the first batch stores a wake
(`OutputHistory.Packed.wakeStored_move`).

Whoever flushes the output polls for the wake, and takes it. From the moment at
which the buffer holds a full batch there is a wake for it, until a poll has
taken one (`OutputHistory.wake_stored_or_taken`). That holds in the middle of a
write, too.
-/

namespace MetricAgent

namespace Buffer

variable {α : Type} {b : Buffer α}

theorem size_accept_le (b : Buffer α) (out : Batch α) : (b.accept out).size ≤ b.size :=
  List.length_filter_le _ _

/-- A batch that comes back makes a buffer no longer, if entries were displaced
only while it was full. -/
theorem size_reject_le (hfull : b.displaced ≠ [] → b.size = b.capacity) (out : Batch α) :
    (b.reject out).size ≤ b.size := by
  by_cases hnone : b.displaced = []
  · have hreturning : (b.resolve out).displaced.filter out.covers = [] := by
      rw [resolve, hnone, List.filter_nil]
    have hentries : (b.reject out).entries = b.entries.take b.capacity := by
      simp only [reject, hreturning, List.foldl_nil]
      rfl
    rw [size, hentries]
    exact List.length_take_le' _ _
  · rw [hfull hnone]
    exact size_cut_le _

/-- Entries are displaced only by an entry for which there was no room. -/
theorem Valid.size_add_of_displaced (h : b.Valid)
    (hfull : b.displaced ≠ [] → b.size = b.capacity) (x : α)
    (hsome : (b.add x).displaced ≠ []) : (b.add x).size = (b.add x).capacity := by
  have hsize := h.size_add x
  rw [capacity_add]
  by_cases hroom : b.entries.length < b.capacity
  · have hkept : (b.add x).displaced = b.displaced := by
      simp only [Buffer.add, Buffer.makeRoom, if_pos hroom]
    have heq := hfull (hkept ▸ hsome)
    omega
  · have hle : b.capacity ≤ b.size := Nat.le_of_not_lt hroom
    omega

end Buffer

/-- Something that is done to an output, or a poll for its wake. -/
inductive OrPoll (α : Type) where
  | act (a : α)
  | poll

namespace OutputHistory

/-- Polls for the wake, which is taken if one is stored. -/
def poll (h : OutputHistory) : OutputHistory := { h with output := h.output.takeWake.1 }

section Run

variable {α : Type} (act : OutputHistory → α → OutputHistory)

def next (h : OutputHistory) : OrPoll α → OutputHistory
  | .act a => act h a
  | .poll => h.poll

def run (h : OutputHistory) (steps : List (OrPoll α)) : OutputHistory := steps.foldl (next act) h

@[simp] theorem run_nil (h : OutputHistory) : h.run act [] = h := rfl

@[simp] theorem run_cons (h : OutputHistory) (step : OrPoll α) (steps : List (OrPoll α)) :
    h.run act (step :: steps) = (h.next act step).run act steps := rfl

theorem run_append (h : OutputHistory) (steps more : List (OrPoll α)) :
    h.run act (steps ++ more) = (h.run act steps).run act more :=
  List.foldl_append

end Run

theorem run_map_act (h : OutputHistory) (ms : List OutputMove) :
    h.run move (ms.map .act) = h.moves ms :=
  List.foldl_map

/-! ### Calls and polls -/

/-- The moves that calls are made of, with the polls between the calls left where
they are. -/
inductive MadeOf : OutputHistory → List (OrPoll OutputCall) → List (OrPoll OutputMove) → Prop where
  | nil (h : OutputHistory) : MadeOf h [] []
  | poll {h : OutputHistory} {calls : List (OrPoll OutputCall)} {steps : List (OrPoll OutputMove)}
      (rest : MadeOf h.poll calls steps) : MadeOf h (.poll :: calls) (.poll :: steps)
  | call {h : OutputHistory} {c : OutputCall} {ms : List OutputMove}
      {calls : List (OrPoll OutputCall)} {steps : List (OrPoll OutputMove)}
      (same : h.call c = h.moves ms) (rest : MadeOf (h.call c) calls steps) :
      MadeOf h (.act c :: calls) (ms.map .act ++ steps)

variable {h : OutputHistory} {calls : List (OrPoll OutputCall)} {steps : List (OrPoll OutputMove)}

theorem MadeOf.run_eq (hm : MadeOf h calls steps) :
    h.run move steps = h.run OutputHistory.call calls := by
  induction hm with
  | nil => rfl
  | poll _ ih => exact ih
  | call same _ ih =>
      rw [run_append, run_map_act, ← same]
      exact ih

theorem exists_madeOf (hw : h.writing = none) (calls : List (OrPoll OutputCall)) :
    (h.run call calls).writing = none ∧ ∃ steps, MadeOf h calls steps := by
  induction calls generalizing h with
  | nil => exact ⟨hw, [], .nil h⟩
  | cons c calls ih =>
      cases c with
      | poll =>
          obtain ⟨hidle, steps, hsteps⟩ := ih (h := h.poll) hw
          exact ⟨hidle, .poll :: steps, .poll hsteps⟩
      | act c =>
          obtain ⟨hcall, ms, hms⟩ := exists_moves_call hw c
          obtain ⟨hidle, steps, hsteps⟩ := ih hcall
          exact ⟨hidle, ms.map .act ++ steps, .call hms hsteps⟩

/-! ### What is displaced was pushed out of a full buffer -/

def HoldsBatch (h : OutputHistory) : Prop := h.output.batchSize ≤ h.output.buffer.size

/-- A history in which entries were displaced only from a full buffer. -/
structure Packed (h : OutputHistory) : Prop where
  tracks : ∃ b, h.Tracks b
  full : h.output.buffer.displaced ≠ [] → h.output.buffer.size = h.output.buffer.capacity

theorem packed_start (s : OutputSettings) (maxBatch : Option Nat) : (start s maxBatch).Packed :=
  ⟨⟨_, tracks_start s maxBatch⟩, fun hsome => absurd rfl hsome⟩

theorem Packed.valid (hp : h.Packed) : h.output.buffer.Valid := by
  obtain ⟨b, ht⟩ := hp.tracks
  exact ht.valid

theorem Packed.poll (hp : h.Packed) : h.poll.Packed := by
  obtain ⟨⟨b, ht⟩, hfull⟩ := hp
  exact ⟨⟨b, ht.serial, ht.buffer, ht.out, ht.added, ht.accepted⟩, hfull⟩

theorem Packed.full_move (hp : h.Packed) (m : OutputMove) :
    (h.move m).output.buffer.displaced ≠ [] →
      (h.move m).output.buffer.size = (h.move m).output.buffer.capacity := by
  cases m with
  | add m =>
      have hbuffer : (h.move (.add m)).output.buffer =
          h.output.buffer.addAll (h.output.admit? m).toList := h.output.buffer_add m
      rw [hbuffer]
      cases h.output.admit? m with
      | none => exact hp.full
      | some n => exact hp.valid.size_add_of_displaced hp.full n
  | beginWrite n =>
      simp only [OutputHistory.move]
      split <;> exact hp.full
  | endWrite succeeded =>
      -- After a write nothing is out, so nothing is displaced.
      obtain ⟨b, ht⟩ := hp.tracks
      obtain ⟨c, hc⟩ := ht.endWrite succeeded
      have hw : (h.move (.endWrite succeeded)).writing = none := by
        simp only [OutputHistory.move]
        split
        · rfl
        · assumption
      exact fun hsome => absurd (hc.valid.displaced_eq_nil (hc.inFlight_eq_nil hw)) hsome

theorem Packed.move (hp : h.Packed) (m : OutputMove) : (h.move m).Packed := by
  obtain ⟨b, ht⟩ := hp.tracks
  exact ⟨ht.move m, hp.full_move m⟩

theorem Packed.run (hp : h.Packed) (steps : List (OrPoll OutputMove)) :
    (h.run OutputHistory.move steps).Packed := by
  induction steps generalizing h with
  | nil => exact hp
  | cons step steps ih =>
      cases step with
      | act m => exact ih (hp.move m)
      | poll => exact ih hp.poll

/-! ### When a wake is stored -/

/-- Only a poll takes a wake. -/
theorem wakeStored_move_of_stored (hstored : h.output.wakeStored = true) (m : OutputMove) :
    (h.move m).output.wakeStored = true := by
  cases m with
  | add m =>
      simp only [OutputHistory.move, Output.add]
      split
      · exact hstored
      · rw [Output.withBuffer, hstored, Bool.true_or]
  | beginWrite n =>
      simp only [OutputHistory.move]
      split <;> exact hstored
  | endWrite succeeded =>
      simp only [OutputHistory.move]
      split
      · cases succeeded <;> exact hstored
      · exact hstored

/-- The end of a write makes the buffer no longer. -/
theorem Packed.size_endWrite_le (hp : h.Packed) (succeeded : Bool) :
    (h.move (.endWrite succeeded)).output.buffer.size ≤ h.output.buffer.size := by
  simp only [OutputHistory.move]
  split
  · next batch _ =>
    cases succeeded with
    | true => exact h.output.buffer.size_accept_le batch
    | false => exact Buffer.size_reject_le hp.full batch
  · exact Nat.le_refl _

/-- The move that completes the first batch stores a wake. -/
theorem Packed.wakeStored_move (hp : h.Packed) {m : OutputMove} (hbefore : ¬ h.HoldsBatch)
    (hafter : (h.move m).HoldsBatch) : (h.move m).output.wakeStored = true := by
  unfold HoldsBatch at hbefore hafter
  rw [batchSize_move] at hafter
  cases m with
  | add m =>
      cases hm : h.output.filter.apply m with
      | none =>
          have hkept : (h.move (.add m)).output.buffer = h.output.buffer := by
            simp only [OutputHistory.move, Output.add, hm]
          rw [hkept] at hafter
          exact absurd hafter hbefore
      | some n =>
          have hbuffer : (h.move (.add m)).output.buffer =
              h.output.buffer.add (h.output.rename.apply n) := by
            simp only [OutputHistory.move, Output.add, hm]
            rfl
          rw [hbuffer] at hafter
          exact Output.wakeStored_add_of_completes hm hp.valid hbefore hafter
  | beginWrite n =>
      have hkept : (h.move (.beginWrite n)).output.buffer.size = h.output.buffer.size := by
        simp only [OutputHistory.move]
        split <;> rfl
      exact absurd (hkept ▸ hafter) hbefore
  | endWrite succeeded =>
      exact absurd (Nat.le_trans hafter (hp.size_endWrite_le succeeded)) hbefore

/-! ### From then on -/

/-- One of the steps was a poll that took a wake, and since then the buffer has
held a full batch. -/
def WakeTaken (h : OutputHistory) (steps : List (OrPoll OutputMove)) : Prop :=
  ∃ before after, steps = before ++ .poll :: after ∧
    (h.run move before).output.wakeStored = true ∧
    ∀ since, since <+: after → (h.run move (before ++ .poll :: since)).HoldsBatch

theorem WakeTaken.concat (ht : WakeTaken h steps) {step : OrPoll OutputMove}
    (hfull : (h.run move (steps ++ [step])).HoldsBatch) : WakeTaken h (steps ++ [step]) := by
  obtain ⟨before, after, rfl, hstored, hheld⟩ := ht
  refine ⟨before, after ++ [step], by simp, hstored, fun since hsince => ?_⟩
  rcases List.prefix_concat_iff.1 hsince with rfl | hsince
  · simpa using hfull
  · exact hheld since hsince

/-- A poll that finds a wake takes it. -/
theorem wakeTaken_poll (hfull : (h.run move steps).HoldsBatch)
    (hstored : (h.run move steps).output.wakeStored = true) :
    WakeTaken h (steps ++ [.poll]) := by
  refine ⟨steps, [], rfl, hstored, fun since hsince => ?_⟩
  obtain rfl := List.prefix_nil.1 hsince
  rw [run_append]
  exact hfull

/-- What one more step keeps. -/
theorem Packed.stored_or_taken_concat (hp : (h.run OutputHistory.move steps).Packed)
    {step : OrPoll OutputMove}
    (ih : (h.run OutputHistory.move steps).HoldsBatch →
      (h.run OutputHistory.move steps).output.wakeStored = true ∨ WakeTaken h steps)
    (hfull : (h.run OutputHistory.move (steps ++ [step])).HoldsBatch) :
    (h.run OutputHistory.move (steps ++ [step])).output.wakeStored = true ∨
      WakeTaken h (steps ++ [step]) := by
  have hlast := h.run_append OutputHistory.move steps [step]
  cases step with
  | poll =>
      have hbefore : (h.run OutputHistory.move steps).HoldsBatch := by
        rw [hlast] at hfull
        exact hfull
      rcases ih hbefore with hstored | htaken
      · exact .inr (wakeTaken_poll hbefore hstored)
      · exact .inr (htaken.concat hfull)
  | act m =>
      by_cases hbefore : (h.run OutputHistory.move steps).HoldsBatch
      · rcases ih hbefore with hstored | htaken
        · rw [hlast]
          exact .inl (wakeStored_move_of_stored hstored m)
        · exact .inr (htaken.concat hfull)
      · rw [hlast] at hfull ⊢
        exact .inl (hp.wakeStored_move hbefore hfull)

/-- Calls, whatever the sink hands in and refuses, and polls are moves and polls,
with the polls in their places. After any moves and polls, if the buffer holds a
full batch, a wake is stored, or a poll has taken one and the buffer has held a
full batch ever since. -/
theorem wake_stored_or_taken (s : OutputSettings) (maxBatch : Option Nat) :
    (∀ calls : List (OrPoll OutputCall), ((start s maxBatch).run call calls).writing = none ∧
      (∃ steps, MadeOf (start s maxBatch) calls steps) ∧
      ∀ steps, MadeOf (start s maxBatch) calls steps →
        (start s maxBatch).run move steps = (start s maxBatch).run call calls) ∧
    ∀ steps : List (OrPoll OutputMove),
      ((start s maxBatch).run move steps).HoldsBatch →
        ((start s maxBatch).run move steps).output.wakeStored = true ∨
          WakeTaken (start s maxBatch) steps := by
  refine ⟨fun calls => ?_, fun steps => ?_⟩
  · obtain ⟨hidle, hsteps⟩ := exists_madeOf (h := start s maxBatch) rfl calls
    exact ⟨hidle, hsteps, fun steps => MadeOf.run_eq⟩
  · induction steps using List.reverseRecOn with
    | nil => exact fun hfull => absurd hfull (Nat.not_le.2 (Output.batchSize_make_pos s maxBatch))
    | append_singleton steps step ih =>
        exact ((packed_start s maxBatch).run steps).stored_or_taken_concat ih

/-- A poll takes the wake, and then a batch comes back to a full buffer. No wake is
stored for it. -/
theorem wake_stored_or_taken_refused :
    let reading (name : String) : Metric := ⟨name, [], [("value", .int 1)], .epoch, .untyped⟩
    let h := start ⟨"file", none, 2, 3, .none, .empty⟩ none
    let calls : List (OrPoll OutputCall) := [.act (.add (reading "cpu")),
      .act (.add (reading "disk")), .poll,
      .act (.writeBatch [⟨[reading "swap", reading "load"], some "refused"⟩])]
    ∃ steps, MadeOf h calls steps ∧ (h.run move steps).HoldsBatch ∧
      (h.run move steps).output.wakeStored = false ∧ WakeTaken h steps := by
  intro reading h calls
  obtain ⟨hcalls, hwake⟩ := wake_stored_or_taken ⟨"file", none, 2, 3, .none, .empty⟩ none
  obtain ⟨-, ⟨steps, hmade⟩, hsame⟩ := hcalls calls
  have hrun := hsame steps hmade
  have hfull : (h.run move steps).HoldsBatch := by
    show (h.run move steps).output.batchSize ≤ (h.run move steps).output.buffer.size
    rw [hrun]
    decide +kernel
  have hquiet : (h.run move steps).output.wakeStored = false := by
    rw [hrun]
    decide +kernel
  have htaken := (hwake steps hfull).resolve_left fun hstored =>
    Bool.false_ne_true (hquiet.symm.trans hstored)
  exact ⟨steps, hmade, hfull, hquiet, htaken⟩

end OutputHistory

end MetricAgent
