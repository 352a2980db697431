import MetricAgent.Pipeline.Flow
import MetricAgent.Proofs.Output.Wakes

/-!
# An output beside its flush loop

While metrics are offered to an output, its loop takes batches out and gives
them back. None of this changes how many metrics were offered, and the counts of
the output are those of a history of its buffer (`OutputTask.Sound`). When the
loop has come to rest, a flush that succeeds writes all that is left.
-/

namespace MetricAgent

namespace Output

def seen (o : Output) : Nat := o.stats.added + o.stats.filtered

theorem seen_add (o : Output) (m : Metric) : (o.add m).1.seen = o.seen + 1 := by
  unfold add
  split
  · rfl
  · simp only [seen, withBuffer]
    omega

theorem seen_endWrite (o : Output) (batch : Batch Metric) (succeeded : Bool) :
    (o.endWrite batch succeeded).seen = o.seen := by
  unfold endWrite
  split <;> rfl

theorem batchSize_endWrite (o : Output) (batch : Batch Metric) (succeeded : Bool) :
    (o.endWrite batch succeeded).batchSize = o.batchSize := by
  unfold endWrite
  split <;> rfl

/-- Some history led to an output and to the batch that its sink is looking at. -/
def Followed (o : Output) (writing : Option (Batch Metric)) : Prop :=
  ∃ (admitted delivered : List Metric) (b : BufferHistory Metric),
    OutputHistory.Tracks ⟨o, admitted, delivered, writing⟩ b ∧
      OutputHistory.Counted ⟨o, admitted, delivered, writing⟩

variable {o p : Output} {writing : Option (Batch Metric)}

theorem followed_make (s : OutputSettings) (maxBatch : Option Nat) :
    (make s maxBatch).Followed none :=
  ⟨[], [], _, OutputHistory.tracks_start s maxBatch, OutputHistory.counted_start s maxBatch⟩

theorem Followed.add (h : o.Followed writing) (m : Metric) : (o.add m).1.Followed writing := by
  obtain ⟨admitted, delivered, b, ht, hc⟩ := h
  obtain ⟨c, ht'⟩ := ht.add m
  exact ⟨_, delivered, c, ht', hc.add m⟩

theorem Followed.beginWrite (h : o.Followed none) (n : Nat) :
    (o.beginWrite n).1.Followed
      (if (o.beginWrite n).2.isEmpty then none else some (o.beginWrite n).2) := by
  obtain ⟨admitted, delivered, b, ht, hc⟩ := h
  obtain ⟨c, ht'⟩ := ht.beginWrite n
  exact ⟨admitted, delivered, c, ht', hc.beginWrite n⟩

theorem Followed.endWrite {batch : Batch Metric} (h : o.Followed (some batch)) (succeeded : Bool) :
    (o.endWrite batch succeeded).Followed none := by
  obtain ⟨admitted, delivered, b, ht, hc⟩ := h
  obtain ⟨c, ht'⟩ := ht.endWrite succeeded
  exact ⟨admitted, _, c, ht', hc.endWrite succeeded⟩

/-- Only the buffer of an output and its counts have a history. -/
theorem Followed.congr (h : o.Followed writing) (hbuffer : p.buffer = o.buffer)
    (hstats : p.stats = o.stats) : p.Followed writing := by
  obtain ⟨admitted, delivered, b, ht, hc⟩ := h
  refine ⟨admitted, delivered, b,
    ⟨ht.serial, ht.buffer.trans hbuffer.symm, ht.out, ht.added, ht.accepted⟩, ?_⟩
  obtain ⟨hadded, hwritten, hdropped, hsize, hlimit⟩ := hc
  constructor <;> simpa only [hbuffer, hstats]

/-- A flush that succeeds leaves nothing behind that is not counted. -/
theorem Followed.write (h : o.Followed none) (hpos : 0 < o.batchSize) :
    let last := (o.write []).output
    last.buffer.entries = [] ∧ last.stats.written + last.stats.dropped = last.stats.added := by
  intro last
  obtain ⟨admitted, delivered, b, ht, hc⟩ := h
  obtain ⟨hidle, ms, hms⟩ := OutputHistory.exists_moves_call
    (h := ⟨o, admitted, delivered, none⟩) rfl (.write [])
  obtain ⟨c, ht'⟩ := ht.moves ms
  have hc' := hc.moves ms
  rw [← hms] at ht' hc'
  have hentries : last.buffer.entries = [] := by
    rw [buffer_write ht.valid (ht.inFlight_eq_nil rfl) hpos]
  have hadded : last.stats.added = last.stats.written + last.stats.dropped + last.stats.bufferSize :=
    ht'.added_eq hc' hidle
  have hsize : last.stats.bufferSize = last.buffer.size := hc'.bufferSize
  rw [hsize, Buffer.size, hentries, List.length_nil, Nat.add_zero] at hadded
  exact ⟨hentries, hadded.symm⟩

end Output

namespace OutputTask

structure Sound (o : OutputTask) : Prop where
  followed : o.output.Followed o.writing
  seen : o.output.seen = o.offered.length
  batchSize_pos : 0 < o.output.batchSize
  idle : o.phase = .waiting ∨ o.phase = .ended → o.writing = none

variable {o o' : OutputTask}

theorem sound_start (s : OutputSettings) (maxBatch : Option Nat) :
    (start (Output.make s maxBatch)).Sound :=
  ⟨Output.followed_make s maxBatch, rfl, Output.batchSize_make_pos s maxBatch, fun _ => rfl⟩

theorem Sound.offer (hs : o.Sound) (m : Metric) : (o.offer m).Sound where
  followed := hs.followed.add m
  seen := by simp only [OutputTask.offer, Output.seen_add, hs.seen, List.length_append,
    List.length_singleton]
  batchSize_pos := by
    simp only [OutputTask.offer, Output.batchSize_add]
    exact hs.batchSize_pos
  idle := hs.idle

/-- A flush ends when no batch is out. -/
theorem sound_rest (hfollowed : o.output.Followed none) (hseen : o.output.seen = o.offered.length)
    (hpos : 0 < o.output.batchSize) : o.rest.Sound :=
  ⟨hfollowed.congr rfl rfl, hseen, hpos, fun _ => rfl⟩

theorem Sound.stop (hs : o.Sound) (h : o.stop = some o') :
    o'.Sound ∧ o'.offered = o.offered := by
  unfold OutputTask.stop at h
  split at h
  · next hphase =>
    cases h
    exact ⟨⟨hs.followed, hs.seen, hs.batchSize_pos, fun _ => hs.idle (.inl hphase)⟩, rfl⟩
  · cases h

/-- A flush loop keeps its output sound, and offers it nothing. -/
theorem Sound.step {a : LoopAction} (hs : o.Sound) (h : o.step a = some o') :
    o'.Sound ∧ o'.offered = o.offered := by
  cases a with
  | tick =>
      simp only [OutputTask.step] at h
      split at h
      · cases h
        exact ⟨⟨hs.followed, hs.seen, hs.batchSize_pos, by simp⟩, rfl⟩
      · cases h
  | expire => exact hs.stop h
  | wake =>
      simp only [OutputTask.step] at h
      split at h
      · simp only [Option.ite_none_right_eq_some, Option.some.injEq] at h
        obtain ⟨-, rfl⟩ := h
        exact ⟨⟨hs.followed.congr rfl rfl, hs.seen, hs.batchSize_pos, by simp⟩, rfl⟩
      · cases h
  | write =>
      simp only [OutputTask.step] at h
      split at h
      · next remaining once hphase hidle =>
        have hbegun := (hidle ▸ hs.followed).beginWrite (min o.output.batchSize remaining)
        split at h
        · next hempty =>
          cases h
          rw [if_pos hempty] at hbegun
          exact ⟨sound_rest hbegun hs.seen hs.batchSize_pos, rfl⟩
        · next hsome =>
          cases h
          rw [if_neg hsome] at hbegun
          exact ⟨⟨hbegun, hs.seen, hs.batchSize_pos, by simp [hphase]⟩, rfl⟩
      · cases h
  | settle succeeded =>
      simp only [OutputTask.step] at h
      split at h
      · next remaining once batch hphase hwriting =>
        have hended := (hwriting ▸ hs.followed).endWrite succeeded
        have hseen := (o.output.seen_endWrite batch succeeded).trans hs.seen
        have hpos : 0 < (o.output.endWrite batch succeeded).batchSize := by
          rw [Output.batchSize_endWrite]
          exact hs.batchSize_pos
        split at h
        · cases h
          exact ⟨⟨hended, hseen, hpos, by simp⟩, rfl⟩
        · cases h
          exact ⟨sound_rest hended hseen hpos, rfl⟩
      · cases h

end OutputTask

end MetricAgent
