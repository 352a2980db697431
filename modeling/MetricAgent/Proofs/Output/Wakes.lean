import MetricAgent.Proofs.Output.Flushing

/-!
# What stored wakes achieve

A wake is stored when the buffer of an output reaches a full batch, and is
answered with one batch. But only one wake is stored at a time. So if metrics
fill several batches before a flush loop gets to run, one of the batches is
written and the others wait for the next tick
(`OutputHistory.lt_batchSize_answered_iff`): nothing full is left behind exactly
if there were fewer than two batches.
-/

namespace MetricAgent

namespace Buffer

variable {α : Type} {b : Buffer α}

theorem Valid.size_add (h : b.Valid) (x : α) : (b.add x).size = min (b.size + 1) b.capacity := by
  have hpos := h.capacity_pos
  have hle := h.size_le
  simp only [size] at hle
  simp only [size, Buffer.add, List.length_append, List.length_singleton]
  unfold Buffer.makeRoom
  split
  · omega
  · rw [entries_discard, List.length_drop]
    omega

end Buffer

namespace Output

/-- A flush loop answers the stored wake with one batch, which the sink takes,
until no wake is stored. -/
inductive Answered : Output → Output → Prop where
  | done {o : Output} (quiet : o.wakeStored = false) : Answered o o
  | wake {o p : Output} (stored : o.wakeStored = true)
      (rest : Answered (o.takeWake.1.writeBatch []).output p) : Answered o p

variable {o p : Output}

@[simp] theorem wakeStored_writeBatch (o : Output) :
    (o.writeBatch []).output.wakeStored = o.wakeStored := by
  simp only [writeBatch]
  split <;> rfl

/-- An output that has no batch out, and that has stored a wake if it holds a
full batch. -/
structure Watched (o : Output) : Prop where
  valid : o.buffer.Valid
  idle : o.buffer.inFlight = []
  batchSize_pos : 0 < o.batchSize
  batchSize_le : o.batchSize ≤ o.buffer.capacity
  wakeStored : o.batchSize ≤ o.buffer.size → o.wakeStored = true

@[simp] theorem batchSize_add (o : Output) (m : Metric) : (o.add m).1.batchSize = o.batchSize := by
  unfold add
  split <;> rfl

theorem buffer_add (o : Output) (m : Metric) :
    (o.add m).1.buffer = o.buffer.addAll (o.admit? m).toList := by
  unfold add admit?
  cases o.filter.apply m <;> rfl

theorem wakeStored_add {o : Output} {m n : Metric} (h : o.filter.apply m = some n) :
    (o.add m).1.wakeStored =
      (o.wakeStored || (o.buffer.add (o.rename.apply n)).size % o.batchSize == 0) := by
  simp only [add, h]
  rfl

/-- The metric that completes the first batch stores a wake. -/
theorem wakeStored_add_of_completes {m n : Metric} (h : o.filter.apply m = some n)
    (hvalid : o.buffer.Valid) (hbefore : ¬ o.batchSize ≤ o.buffer.size)
    (hafter : o.batchSize ≤ (o.buffer.add (o.rename.apply n)).size) :
    (o.add m).1.wakeStored = true := by
  have hsize := hvalid.size_add (o.rename.apply n)
  have hfirst : (o.buffer.add (o.rename.apply n)).size = o.batchSize := by omega
  rw [wakeStored_add h, hfirst, Nat.mod_self, beq_self_eq_true, Bool.or_true]

theorem Watched.add (h : o.Watched) (m : Metric) : (o.add m).1.Watched := by
  obtain ⟨hvalid, hidle, hpos, hle, hwake⟩ := h
  cases hm : o.filter.apply m with
  | none =>
      have hbuffer : (o.add m).1.buffer = o.buffer := by simp [buffer_add, admit?, hm]
      have hkept : (o.add m).1.wakeStored = o.wakeStored := by simp [Output.add, hm]
      refine ⟨?_, ?_, ?_, ?_, ?_⟩
      all_goals simpa only [hbuffer, hkept, batchSize_add]
  | some n =>
      have hbuffer : (o.add m).1.buffer = o.buffer.add (o.rename.apply n) := by
        simp [buffer_add, admit?, hm]
      refine ⟨hbuffer ▸ hvalid.add _, ?_, ?_, ?_, ?_⟩
      · rw [hbuffer, Buffer.inFlight_add, hidle]
      · rw [batchSize_add]
        exact hpos
      · rw [batchSize_add, hbuffer, Buffer.capacity_add]
        exact hle
      · rw [batchSize_add, hbuffer]
        intro hfull
        by_cases hbefore : o.batchSize ≤ o.buffer.size
        · rw [wakeStored_add hm, hwake hbefore, Bool.true_or]
        · exact wakeStored_add_of_completes hm hvalid hbefore hfull

theorem Watched.addAll (h : o.Watched) (ms : List Metric) : (o.addAll ms).1.Watched := by
  induction ms generalizing o with
  | nil => exact h
  | cons m ms ih => exact ih (h.add m)

@[simp] theorem batchSize_addAll (o : Output) (ms : List Metric) :
    (o.addAll ms).1.batchSize = o.batchSize := by
  induction ms generalizing o with
  | nil => rfl
  | cons m ms ih => exact (ih (o.add m).1).trans (o.batchSize_add m)

theorem size_addAll (h : o.buffer.Valid) (ms : List Metric) :
    (o.addAll ms).1.buffer.size =
      min (o.buffer.size + (ms.filterMap o.admit?).length) o.buffer.capacity := by
  induction ms generalizing o with
  | nil =>
      have hle := h.size_le
      simp only [addAll_nil, List.filterMap_nil, List.length_nil]
      omega
  | cons m ms ih =>
      have hbuffer := o.buffer_add m
      have hrest := ih (o := (o.add m).1) (hbuffer ▸ h.addAll _)
      change ((o.add m).1.addAll ms).1.buffer.size = _
      rw [hrest, admit?_add, hbuffer, List.filterMap_cons]
      cases o.admit? m with
      | none => rfl
      | some n =>
          simp only [Option.toList_some, Buffer.addAll_cons, Buffer.addAll_nil, h.size_add,
            Buffer.capacity_add, List.length_cons]
          omega

/-- One batch is all that a loop writes, if it writes any. -/
theorem answered_iff :
    o.Answered p ↔ p = if o.wakeStored then (o.takeWake.1.writeBatch []).output else o := by
  have hquiet : (o.takeWake.1.writeBatch []).output.wakeStored = false :=
    wakeStored_writeBatch _
  constructor
  · intro ha
    cases ha with
    | done hnone => rw [hnone, if_neg Bool.false_ne_true]
    | wake hstored hrest =>
        rw [hstored, if_pos rfl]
        cases hrest with
        | done => rfl
        -- Writing a batch stores no wake, so there is no second one.
        | wake hagain => exact absurd hagain (by rw [hquiet]; exact Bool.false_ne_true)
  · rintro rfl
    cases hstored : o.wakeStored with
    | true => exact .wake hstored (.done hquiet)
    | false => exact .done hstored

theorem Watched.size_answered (h : o.Watched) (ha : o.Answered p) :
    p.buffer.size = o.buffer.size - if o.wakeStored then o.batchSize else 0 := by
  rw [answered_iff] at ha
  subst ha
  cases hstored : o.wakeStored with
  | true =>
      have hbuffer := buffer_writeBatch (o := o.takeWake.1) h.valid h.idle
      simp only [if_true, hbuffer, Buffer.size, List.length_drop]
      rfl
  | false => simp

end Output

namespace OutputHistory

theorem batchSize_move (h : OutputHistory) (m : OutputMove) :
    (h.move m).output.batchSize = h.output.batchSize := by
  cases m with
  | add m => exact h.output.batchSize_add m
  | beginWrite n =>
      simp only [move]
      split <;> rfl
  | endWrite succeeded =>
      simp only [move]
      split
      · cases succeeded <;> rfl
      · rfl

theorem batchSize_moves (h : OutputHistory) (ms : List OutputMove) :
    (h.moves ms).output.batchSize = h.output.batchSize := by
  induction ms generalizing h with
  | nil => rfl
  | cons m ms ih => exact (ih (h.move m)).trans (h.batchSize_move m)

theorem Tracks.valid {h : OutputHistory} {b : BufferHistory Metric} (ht : h.Tracks b) :
    h.output.buffer.Valid :=
  ht.buffer ▸ ht.serial.sound.valid

theorem Tracks.inFlight_eq_nil {h : OutputHistory} {b : BufferHistory Metric} (ht : h.Tracks b)
    (hw : h.writing = none) : h.output.buffer.inFlight = [] := by
  have hout : b.out = [] := by simpa [hw] using ht.out
  rw [← ht.buffer]
  simpa [hout] using ht.serial.sound.inFlight

theorem batchSize_calls (s : OutputSettings) (maxBatch : Option Nat) (cs : List OutputCall) :
    ((start s maxBatch).calls cs).output.batchSize = (Output.make s maxBatch).batchSize := by
  obtain ⟨-, ms, hms⟩ := exists_moves_calls (h := start s maxBatch) rfl cs
  rw [hms, batchSize_moves]
  rfl

theorem capacity_calls (s : OutputSettings) (maxBatch : Option Nat) (cs : List OutputCall) :
    ((start s maxBatch).calls cs).output.buffer.capacity = max s.bufferLimit 1 := by
  obtain ⟨-, ms, hms⟩ := exists_moves_calls (h := start s maxBatch) rfl cs
  rw [hms, capacity_moves]
  rfl

/-- After any calls that leave the buffer empty, an output is watched. -/
theorem watched_calls {s : OutputSettings} {maxBatch : Option Nat} {cs : List OutputCall}
    (hlimit : (Output.make s maxBatch).batchSize ≤ max s.bufferLimit 1)
    (hempty : ((start s maxBatch).calls cs).output.buffer.entries = []) :
    ((start s maxBatch).calls cs).output.Watched := by
  obtain ⟨hidle, ms, hms⟩ := exists_moves_calls (h := start s maxBatch) rfl cs
  obtain ⟨b, ht⟩ := (tracks_start s maxBatch).moves ms
  rw [← hms] at ht
  have hpos := Output.batchSize_make_pos s maxBatch
  refine ⟨ht.valid, ht.inFlight_eq_nil hidle, ?_, ?_, fun hfull => ?_⟩
  · rw [batchSize_calls]
    exact hpos
  · rw [batchSize_calls, capacity_calls]
    exact hlimit
  · rw [batchSize_calls, Buffer.size, hempty, List.length_nil] at hfull
    omega

/-- Metrics come in while the buffer is empty, and then the stored wakes are
answered until there is none. That ends, and leaves less than a full batch
exactly if the buffer held fewer than two of them. -/
theorem lt_batchSize_answered_iff (s : OutputSettings) (maxBatch : Option Nat)
    (cs : List OutputCall) (ms : List Metric)
    (hlimit : (Output.make s maxBatch).batchSize ≤ max s.bufferLimit 1)
    (hempty : ((start s maxBatch).calls cs).output.buffer.entries = []) :
    let first := ((start s maxBatch).calls cs).output
    let o := (first.addAll ms).1
    let waiting := min (ms.filterMap first.admit?).length (max s.bufferLimit 1)
    o.buffer.size = waiting ∧ (∃ p, o.Answered p) ∧ ∀ p, o.Answered p →
      p.buffer.size = waiting - (if o.wakeStored then o.batchSize else 0) ∧
        (p.buffer.size < o.batchSize ↔ waiting < 2 * o.batchSize) := by
  intro first o waiting
  have hfirst : first.Watched := watched_calls hlimit hempty
  have ho : o.Watched := hfirst.addAll ms
  have hsize : o.buffer.size = waiting := by
    have hcapacity : first.buffer.capacity = max s.bufferLimit 1 := capacity_calls s maxBatch cs
    rw [Output.size_addAll hfirst.valid, Buffer.size, hempty, hcapacity, List.length_nil,
      Nat.zero_add]
  refine ⟨hsize, ⟨_, Output.answered_iff.2 rfl⟩, fun p hp => ?_⟩
  have hleft := ho.size_answered hp
  rw [hsize] at hleft
  refine ⟨hleft, ?_⟩
  have hpos := ho.batchSize_pos
  rw [hleft]
  by_cases hfull : o.batchSize ≤ waiting
  · rw [ho.wakeStored (hsize ▸ hfull), if_pos rfl]
    omega
  · have hle := Nat.sub_le waiting (if o.wakeStored then o.batchSize else 0)
    omega

/-- Four metrics fill two batches before the loop gets to run. -/
def burst : List Metric :=
  [1, 2, 3, 4].map fun value => ⟨"up", [], [("value", .int value)], .epoch, .untyped⟩

theorem lt_batchSize_answered_iff_burst :
    let o := ((Output.make ⟨"file", none, 2, 10, .none, .empty⟩ none).addAll burst).1
    ∃ p, o.Answered p ∧ p.buffer.size = 2 ∧ ¬ p.buffer.size < o.batchSize := by
  intro o
  obtain ⟨-, ⟨p, hp⟩, hall⟩ := lt_batchSize_answered_iff ⟨"file", none, 2, 10, .none, .empty⟩ none
    [] burst (by decide) rfl
  obtain ⟨hsize, hiff⟩ := hall p hp
  refine ⟨p, hp, hsize.trans ?_, fun hlt => ?_⟩
  · decide +kernel
  · exact absurd (hiff.1 hlt) (by decide +kernel)

/-- A full batch may be left although no wake is stored any more. -/
theorem full_batch_left :
    ¬ ∀ (s : OutputSettings) (maxBatch : Option Nat) (ms : List Metric) (p : Output),
      (Output.make s maxBatch).batchSize ≤ max s.bufferLimit 1 →
      ((Output.make s maxBatch).addAll ms).1.Answered p →
      p.buffer.size < (Output.make s maxBatch).batchSize := by
  intro h
  have hlt := h ⟨"file", none, 2, 10, .none, .empty⟩ none burst _ (by decide)
    (.wake rfl (.done rfl))
  exact absurd hlt (by decide +kernel)

end OutputHistory

end MetricAgent
