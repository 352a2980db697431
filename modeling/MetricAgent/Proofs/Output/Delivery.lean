import MetricAgent.Proofs.Buffer.Serial
import MetricAgent.Proofs.Output.History

/-!
# Delivery in order

An output takes one batch at a time out of its buffer. So the history of its
buffer is serial, and what the sink took, followed by what waits, is a part of
what was admitted, in the same order. Each admitted metric that is in neither
part was dropped, and was counted as dropped once.

`OutputHistory.Tracks` ties a history of an output to one of its buffer. All
that is said about order and loss is said there; here the counts are added.
-/

namespace MetricAgent

namespace OutputHistory

/-- The history of the buffer that lies behind the history of an output. -/
structure Tracks (h : OutputHistory) (b : BufferHistory Metric) : Prop where
  serial : b.Serial
  buffer : b.buffer = h.output.buffer
  out : b.out = h.writing.toList
  added : b.added = h.admitted
  accepted : b.accepted.map Entry.item = h.delivered

structure Counted (h : OutputHistory) : Prop where
  added : h.output.stats.added = h.admitted.length
  written : h.output.stats.written = h.delivered.length
  dropped : h.output.stats.dropped = h.output.buffer.dropped
  bufferSize : h.output.stats.bufferSize = h.output.buffer.size
  bufferLimit : h.output.stats.bufferLimit = h.output.buffer.capacity

theorem tracks_start (s : OutputSettings) (maxBatch : Option Nat) :
    (start s maxBatch).Tracks (BufferHistory.start s.bufferLimit) :=
  ⟨BufferHistory.serial_start _, rfl, rfl, rfl, rfl⟩

theorem counted_start (s : OutputSettings) (maxBatch : Option Nat) : (start s maxBatch).Counted :=
  ⟨rfl, rfl, rfl, rfl, rfl⟩

variable {h : OutputHistory} {b : BufferHistory Metric}

/-! ### What one move keeps -/

theorem Tracks.add (ht : h.Tracks b) (m : Metric) : ∃ c, (h.move (.add m)).Tracks c := by
  cases hm : h.output.filter.apply m with
  | none =>
      refine ⟨b, ht.serial, ?_, ht.out, ?_, ht.accepted⟩
      · simp [move, Output.add, hm, ht.buffer]
      · simp [move, Output.admit?, hm, ht.added]
  | some n =>
      refine ⟨b.step (.add (h.output.rename.apply n)), ht.serial.add _, ?_, ht.out, ?_, ?_⟩
      · simp [move, Output.add, hm, BufferHistory.step, BufferHistory.advance, ht.buffer,
          Output.withBuffer]
      · simp [move, Output.admit?, hm, BufferHistory.step, BufferHistory.advance, ht.added]
      · simp [move, BufferHistory.step, BufferHistory.advance, ht.accepted]

theorem Tracks.beginWrite (ht : h.Tracks b) (n : Nat) :
    ∃ c, (h.move (.beginWrite n)).Tracks c := by
  cases hw : h.writing with
  | some batch =>
      refine ⟨b, ?_⟩
      simpa [move, hw] using ht
  | none =>
      have hout : b.out = [] := by simpa [hw] using ht.out
      by_cases hb : (h.output.beginWrite n).2 = []
      · refine ⟨b, ht.serial, ?_, ?_, ?_, ?_⟩
        · have hsame := Buffer.batch_of_eq_nil hb
          simp [move, hw, ht.buffer, Output.beginWrite, hsame]
        · simp [move, hw, hb, hout]
        · simpa [move, hw] using ht.added
        · simpa [move, hw] using ht.accepted
      · refine ⟨b.step (.batch n), ht.serial.batch hout n, ?_, ?_, ?_, ?_⟩
        · simp [move, hw, BufferHistory.step, BufferHistory.advance, ht.buffer, Output.beginWrite]
        · simp [move, hw, hb, BufferHistory.step, BufferHistory.advance, hout, ht.buffer]
          rfl
        · simpa [move, hw, BufferHistory.step, BufferHistory.advance] using ht.added
        · simpa [move, hw, BufferHistory.step, BufferHistory.advance] using ht.accepted

theorem Tracks.endWrite (ht : h.Tracks b) (succeeded : Bool) :
    ∃ c, (h.move (.endWrite succeeded)).Tracks c := by
  cases hw : h.writing with
  | none =>
      refine ⟨b, ?_⟩
      simpa [move, hw] using ht
  | some batch =>
      have hout : b.out = [batch] := by simpa [hw] using ht.out
      cases succeeded with
      | true =>
          refine ⟨b.step (.accept 0), ht.serial.accept hout, ?_, ?_, ?_, ?_⟩
          · simp [move, hw, BufferHistory.step, BufferHistory.advance, hout, ht.buffer,
              Output.endWrite, Output.withBuffer]
          · simp [move, hw, BufferHistory.step, hout]
          · simpa [move, hw, BufferHistory.step, BufferHistory.advance, hout] using ht.added
          · simp [move, hw, BufferHistory.step, BufferHistory.advance, hout, ht.accepted,
              Batch.items]
      | false =>
          refine ⟨b.step (.reject 0), ht.serial.reject hout, ?_, ?_, ?_, ?_⟩
          · simp [move, hw, BufferHistory.step, BufferHistory.advance, hout, ht.buffer,
              Output.endWrite, Output.withBuffer]
          · simp [move, hw, BufferHistory.step, hout]
          · simpa [move, hw, BufferHistory.step, BufferHistory.advance, hout] using ht.added
          · simpa [move, hw, BufferHistory.step, BufferHistory.advance, hout] using ht.accepted

theorem Tracks.move (ht : h.Tracks b) (m : OutputMove) : ∃ c, (h.move m).Tracks c := by
  cases m with
  | add m => exact ht.add m
  | beginWrite n => exact ht.beginWrite n
  | endWrite succeeded => exact ht.endWrite succeeded

theorem Counted.add (hc : h.Counted) (m : Metric) : (h.move (.add m)).Counted := by
  obtain ⟨hadded, hwritten, hdropped, hsize, hlimit⟩ := hc
  cases hm : h.output.filter.apply m with
  | none =>
      constructor <;> simp [OutputHistory.move, Output.add, Output.admit?, hm, hadded, hwritten,
        hdropped, hsize, hlimit]
  | some n =>
      have hle := (Buffer.accounts_add h.output.buffer (h.output.rename.apply n)).le_dropped
      constructor <;> simp [OutputHistory.move, Output.add, Output.admit?, Output.withBuffer, hm,
        hadded, hwritten, hdropped, hlimit, hle]

theorem Counted.beginWrite (hc : h.Counted) (n : Nat) : (h.move (.beginWrite n)).Counted := by
  obtain ⟨hadded, hwritten, hdropped, hsize, hlimit⟩ := hc
  cases hw : h.writing with
  | some batch =>
      constructor <;> simp [OutputHistory.move, hw, hadded, hwritten, hdropped, hsize, hlimit]
  | none =>
      have hsame : (h.output.buffer.batch n).1.size = h.output.buffer.size := rfl
      constructor <;> simp [OutputHistory.move, hw, Output.beginWrite, hadded, hwritten, hdropped,
        hsize, hlimit, hsame]

theorem Counted.endWrite (hc : h.Counted) (succeeded : Bool) :
    (h.move (.endWrite succeeded)).Counted := by
  obtain ⟨hadded, hwritten, hdropped, hsize, hlimit⟩ := hc
  cases hw : h.writing with
  | none =>
      constructor <;> simp [OutputHistory.move, hw, hadded, hwritten, hdropped, hsize, hlimit]
  | some batch =>
      cases succeeded with
      | true =>
          constructor <;> simp [OutputHistory.move, hw, Output.endWrite, Output.withBuffer, hadded,
            hwritten, hdropped, hlimit, Batch.items]
      | false =>
          have hle := (Buffer.accounts_reject h.output.buffer batch).le_dropped
          constructor <;> simp [OutputHistory.move, hw, Output.endWrite, Output.withBuffer, hadded,
            hwritten, hdropped, hlimit, hle]

theorem Counted.move (hc : h.Counted) (m : OutputMove) : (h.move m).Counted := by
  cases m with
  | add m => exact hc.add m
  | beginWrite n => exact hc.beginWrite n
  | endWrite succeeded => exact hc.endWrite succeeded

theorem capacity_move (h : OutputHistory) (m : OutputMove) :
    (h.move m).output.buffer.capacity = h.output.buffer.capacity := by
  cases m with
  | add m =>
      simp only [move, Output.add]
      split <;> simp [Output.withBuffer]
  | beginWrite n =>
      simp only [move]
      split <;> rfl
  | endWrite succeeded =>
      simp only [move]
      split
      · cases succeeded <;> rfl
      · rfl

/-! ### What all moves keep -/

/-- A history that moves led to from a new output. -/
theorem Tracks.moves (ht : h.Tracks b) (ms : List OutputMove) : ∃ c, (h.moves ms).Tracks c := by
  induction ms generalizing h b with
  | nil => exact ⟨b, ht⟩
  | cons m ms ih =>
      obtain ⟨c, hc⟩ := ht.move m
      exact ih hc

theorem Counted.moves (hc : h.Counted) (ms : List OutputMove) : (h.moves ms).Counted := by
  induction ms generalizing h with
  | nil => exact hc
  | cons m ms ih => exact ih (hc.move m)

theorem capacity_moves (h : OutputHistory) (ms : List OutputMove) :
    (h.moves ms).output.buffer.capacity = h.output.buffer.capacity := by
  induction ms generalizing h with
  | nil => rfl
  | cons m ms ih => exact (ih (h.move m)).trans (h.capacity_move m)

/-- What was delivered and what waits, as entries with the numbers under which
they were admitted. -/
theorem Tracks.sublist_admitted (ht : h.Tracks b) :
    (b.accepted ++ h.output.buffer.entries).Sublist (Entry.numbered 0 h.admitted) := by
  rw [← ht.buffer, ← ht.added]
  exact ht.serial.sublist_numbered

/-- Between writes, all that was admitted is delivered, waits, or was lost. -/
theorem Tracks.perm_admitted (ht : h.Tracks b) (hw : h.writing = none) :
    (b.accepted ++ h.output.buffer.entries ++ b.lost).Perm (Entry.numbered 0 h.admitted) := by
  have hout : b.out = [] := by simpa [hw] using ht.out
  have hplaces := ht.serial.sound.places
  rw [Buffer.contents, ht.serial.sound.displaced_eq_nil hout, List.append_nil, ht.buffer,
    ht.added] at hplaces
  exact (List.perm_append_comm.append_right _).trans hplaces

theorem Tracks.lost_length (ht : h.Tracks b) (hc : h.Counted) :
    b.lost.length = h.output.stats.dropped := by
  rw [ht.serial.sound.lost_length, ht.buffer, hc.dropped]

/-- Between writes, the counts add up. -/
theorem Tracks.added_eq (ht : h.Tracks b) (hc : h.Counted) (hw : h.writing = none) :
    h.output.stats.added =
      h.output.stats.written + h.output.stats.dropped + h.output.stats.bufferSize := by
  have hlen := (ht.perm_admitted hw).length_eq
  have hall := Entry.length_numbered 0 h.admitted
  have hdelivered := congrArg List.length ht.accepted
  simp only [List.length_append, List.length_map] at hlen hdelivered
  rw [hc.added, hc.written, hc.bufferSize, Buffer.size, ← ht.lost_length hc]
  omega

/-! ### Order and counts -/

/-- After any calls, and at any point of a further one, what the sink took and
then what waits is a part of what was admitted, in that order and nothing twice.
While no write is in progress the rest is lost, and was counted as dropped. -/
theorem delivered_in_order_and_counted (s : OutputSettings) (maxBatch : Option Nat)
    (cs : List OutputCall) (ms : List OutputMove) :
    let done := (start s maxBatch).calls cs
    let h := done.moves ms
    let stats := h.output.stats
    done.writing = none ∧
      (h.delivered ++ h.output.buffer.entries.map Entry.item).Sublist h.admitted ∧
      (stats.added = h.admitted.length ∧ stats.written = h.delivered.length ∧
        stats.bufferSize = h.output.buffer.size ∧ stats.bufferSize ≤ stats.bufferLimit ∧
        stats.bufferLimit = max s.bufferLimit 1) ∧
      ∃ sent lost : List (Entry Metric),
        sent.map Entry.item = h.delivered ∧ lost.length = stats.dropped ∧
          (sent ++ h.output.buffer.entries).Sublist (Entry.numbered 0 h.admitted) ∧
          (h.writing = none →
            (sent ++ h.output.buffer.entries ++ lost).Perm (Entry.numbered 0 h.admitted) ∧
              stats.added = stats.written + stats.dropped + stats.bufferSize) := by
  intro done h stats
  obtain ⟨hidle, before, hbefore⟩ := exists_moves_calls (h := start s maxBatch) rfl cs
  have hmoves : h = (start s maxBatch).moves (before ++ ms) := by
    rw [moves_append, ← hbefore]
  obtain ⟨b, ht⟩ : ∃ b, h.Tracks b := hmoves ▸ (tracks_start s maxBatch).moves _
  have hc : h.Counted := hmoves ▸ (counted_start s maxBatch).moves _
  have hcapacity : h.output.buffer.capacity = max s.bufferLimit 1 := by
    rw [hmoves, capacity_moves]
    rfl
  have hsub := ht.sublist_admitted
  refine ⟨hidle, ?_, ⟨hc.added, hc.written, hc.bufferSize, ?_, ?_⟩, b.accepted, b.lost,
    ht.accepted, ht.lost_length hc, hsub, fun hw => ⟨ht.perm_admitted hw, ht.added_eq hc hw⟩⟩
  · simpa [ht.accepted] using hsub.map Entry.item
  · have hle := ht.serial.sound.valid.size_le
    rw [ht.buffer] at hle
    rw [hc.bufferSize, hc.bufferLimit]
    exact hle
  · rw [hc.bufferLimit, hcapacity]

/-- Calls during which a buffer of three metrics overflows while a batch is out. -/
def overflowing : List OutputCall :=
  let reading (value : Int64) : Metric := ⟨"up", [], [("value", .int value)], .epoch, .untyped⟩
  [.add (reading 1), .add (reading 2), .add (reading 3),
    .write [⟨[reading 4, reading 5], some "refused"⟩], .write []]

theorem delivered_in_order_and_counted_overflowing :
    let h := (start ⟨"file", none, 2, 3, .none, .empty⟩ none).calls overflowing
    h.writing = none ∧ h.output.stats.dropped = 2 ∧ h.output.stats.written = 3 ∧
      h.output.stats.added =
        h.output.stats.written + h.output.stats.dropped + h.output.stats.bufferSize := by
  have hall := delivered_in_order_and_counted ⟨"file", none, 2, 3, .none, .empty⟩ none
    overflowing []
  simp only [moves_nil] at hall
  obtain ⟨hidle, -, -, sent, lost, -, -, -, hcounts⟩ := hall
  refine ⟨hidle, ?_, ?_, (hcounts hidle).2⟩
  · decide +kernel
  · decide +kernel

end OutputHistory

end MetricAgent
