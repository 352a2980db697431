import Mathlib.Data.List.Sort
import MetricAgent.Proofs.Buffer.History

/-!
# One batch at a time

Whoever writes to a sink takes the next batch only when the last one has been
resolved, while entries may still be added at any time. In such a history the
accepted entries come out in the order of their numbers, and before all that is
left: `BufferHistory.Serial`. The reason is that a batch is a beginning of what
is held, and that what is displaced in the meantime belongs to it.
-/

namespace MetricAgent

namespace Entry

variable {α : Type}

/-- Numbered items that are picked in order form a part of the whole list. -/
theorem sublist_numbered {es : List (Entry α)} {xs : List α}
    (h : es.Pairwise fun e f => e.seq < f.seq) (hs : es ⊆ numbered 0 xs) :
    es.Sublist (numbered 0 xs) := by
  have : Std.Antisymm fun e f : Entry α => e.seq < f.seq :=
    ⟨fun e f h h' => absurd h (Nat.lt_asymm h')⟩
  exact List.sublist_of_subperm_of_pairwise (List.subperm_of_subset (nodup_of_sorted h).of_map hs) h
    (sorted_numbered 0 xs)

end Entry

namespace BufferHistory

variable {α : Type} {h : BufferHistory α}

/-- A history in which batches were taken one at a time. -/
structure Serial (h : BufferHistory α) : Prop where
  sound : h.Sound
  accepted_sorted : h.accepted.Pairwise fun e f => e.seq < f.seq
  accepted_lt : ∀ a ∈ h.accepted, ∀ e ∈ h.buffer.contents, a.seq < e.seq
  out_lt : ∀ batch ∈ h.out, ∀ e ∈ batch, ∀ f ∈ h.buffer.entries, f ∉ batch → e.seq < f.seq

theorem serial_start (capacity : Nat) : (start capacity : BufferHistory α).Serial where
  sound := sound_start capacity
  accepted_sorted := List.Pairwise.nil
  accepted_lt := by simp [start]
  out_lt := by simp [start]

theorem Sound.accepted_lt_nextSeq (hs : h.Sound) {a : Entry α} (ha : a ∈ h.accepted) :
    a.seq < h.buffer.nextSeq := by
  have hmem : a ∈ Entry.numbered 0 h.added :=
    hs.places.mem_iff.1 (List.mem_append_left _ (List.mem_append_right _ ha))
  have := (Entry.seq_numbered hmem).2
  rw [hs.nextSeq]
  omega

theorem Sound.displaced_subset (hs : h.Sound) : h.buffer.displaced ⊆ h.out.flatten := by
  intro e he
  have hout := Buffer.isOut_iff.1 (hs.valid.isOut_displaced e he)
  obtain ⟨f, hf, hfe⟩ := List.mem_map.1 (hs.inFlight.mem_iff.1 hout)
  obtain ⟨batch, hb, hfb⟩ := List.mem_flatten.1 hf
  have hkept := hs.out_subset batch hb hfb
  have hplace := Buffer.displaced_subset_contents _ he
  rwa [← List.inj_on_of_nodup_map hs.valid.distinct hkept hplace hfe]

theorem Serial.add (hs : h.Serial) (x : α) : (h.step (.add x)).Serial := by
  have hsub := (Buffer.accounts_add h.buffer x).subset
  refine ⟨hs.sound.step _, ?_, ?_, ?_⟩
  · simpa [step, advance] using hs.accepted_sorted
  · intro a ha e he
    simp only [step, advance, List.append_nil] at ha he
    rcases List.mem_append.1 (hsub he) with he | he
    · exact hs.accepted_lt a ha e he
    · rw [List.mem_singleton.1 he]
      exact hs.sound.accepted_lt_nextSeq ha
  · intro batch hb e he f hf hnot
    obtain ⟨-, hentries, -⟩ := hs.sound.valid.makeRoom
    simp only [step, advance, Buffer.add, Buffer.nextSeq_makeRoom, List.mem_append,
      List.mem_singleton] at hf
    rcases hf with hf | rfl
    · exact hs.out_lt batch hb e he f (hentries.subset hf) hnot
    · exact hs.sound.valid.lt_nextSeq e (hs.sound.out_subset batch hb he)

/-- With no other batch out, a batch is a beginning of what is held. -/
theorem Serial.batch (hs : h.Serial) (hout : h.out = []) (n : Nat) :
    (h.step (.batch n)).Serial := by
  have hnone : h.buffer.inFlight = [] := by simpa [hout] using hs.sound.inFlight
  have hall : (h.buffer.entries.filter fun e => !h.buffer.isOut e) = h.buffer.entries := by
    rw [List.filter_eq_self]
    intro e _
    simp [Buffer.isOut, hnone]
  refine ⟨hs.sound.step _, ?_, ?_, ?_⟩
  · simpa [step, advance] using hs.accepted_sorted
  · simpa [step, advance] using hs.accepted_lt
  · intro batch hb e he f hf hnot
    simp only [step, advance, hout, List.nil_append, List.mem_singleton] at hb
    subst hb
    simp only [Buffer.batch, hall] at he hnot
    have hsorted := hs.sound.valid.sorted
    rw [← List.take_append_drop n h.buffer.entries] at hsorted
    have hmem : f ∈ h.buffer.entries.take n ++ h.buffer.entries.drop n := by
      rw [List.take_append_drop]
      exact hf
    rcases List.mem_append.1 hmem with hf | hf
    · exact absurd hf hnot
    · exact (List.pairwise_append.1 hsorted).2.2 e he f hf

theorem Serial.accept {batch : Batch α} (hs : h.Serial) (hout : h.out = [batch]) :
    (h.step (.accept 0)).Serial := by
  have hmem : batch ∈ h.out := by simp [hout]
  have hkept := hs.sound.out_subset batch hmem
  refine ⟨hs.sound.step _, ?_, ?_, ?_⟩
  · simp only [step, hout, List.getElem?_cons_zero, advance]
    refine List.pairwise_append.2 ⟨hs.accepted_sorted, hs.sound.out_sorted batch hmem, ?_⟩
    exact fun a ha e he => hs.accepted_lt a ha e (hkept he)
  · intro a ha e he
    simp only [step, hout, List.getElem?_cons_zero, advance] at ha he
    rw [Buffer.contents_accept] at he
    obtain ⟨he, hcov⟩ := List.mem_filter.1 he
    have hnot : e ∉ batch := fun hb => by simp [Batch.covers_of_mem hb] at hcov
    rcases List.mem_append.1 ha with ha | ha
    · exact hs.accepted_lt a ha e he
    · rcases List.mem_append.1 he with he | he
      · exact hs.out_lt batch hmem a ha e he hnot
      · exact absurd (by simpa [hout] using hs.sound.displaced_subset he) hnot
  · simp [step, hout, advance]

theorem Serial.reject {batch : Batch α} (hs : h.Serial) (hout : h.out = [batch]) :
    (h.step (.reject 0)).Serial := by
  have hsub := (Buffer.accounts_reject h.buffer batch).subset
  refine ⟨hs.sound.step _, ?_, ?_, ?_⟩
  · simpa [step, hout, advance] using hs.accepted_sorted
  · intro a ha e he
    simp only [step, hout, List.getElem?_cons_zero, advance, List.append_nil] at ha he
    exact hs.accepted_lt a ha e (hsub he)
  · simp [step, hout, advance]

/-- What was accepted and what is held form, one after the other, a part of all
that was added, in the same order. -/
theorem Serial.sublist_numbered (hs : h.Serial) :
    (h.accepted ++ h.buffer.entries).Sublist (Entry.numbered 0 h.added) := by
  refine Entry.sublist_numbered ?_ ?_
  · refine List.pairwise_append.2 ⟨hs.accepted_sorted, hs.sound.valid.sorted, ?_⟩
    exact fun a ha e he => hs.accepted_lt a ha e (Buffer.entries_subset_contents _ he)
  · intro e he
    refine hs.sound.places.mem_iff.1 ?_
    rcases List.mem_append.1 he with he | he
    · exact List.mem_append_left _ (List.mem_append_right _ he)
    · exact List.mem_append_left _ (List.mem_append_left _ (Buffer.entries_subset_contents _ he))

/-- With no batch out, nothing is displaced. -/
theorem Sound.displaced_eq_nil (hs : h.Sound) (hout : h.out = []) : h.buffer.displaced = [] :=
  List.subset_nil.1 (by simpa [hout] using hs.displaced_subset)

end BufferHistory

end MetricAgent
