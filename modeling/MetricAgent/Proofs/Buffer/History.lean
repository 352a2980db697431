import MetricAgent.Proofs.Buffer.Valid

/-!
# Histories of a buffer

A history is a buffer with everything that has become of the entries it was
given: those of accepted batches, and those that were gone after some action
although no batch of theirs was accepted. Any number of batches may be out at
once. Each is resolved at most once, in any order, and may be left out forever.

The main statement is that nothing is lost silently: after any actions each
entry ever added is in exactly one place, and the lost ones are as many as the
buffer says it dropped.
-/

namespace MetricAgent

/-- What can be done with a buffer. A number names a batch among those that are
out. -/
inductive BufferAction (α : Type) where
  | add (item : α)
  | addAll (items : List α)
  | batch (n : Nat)
  | accept (i : Nat)
  | reject (i : Nat)

/-- A buffer and what has become of its entries. -/
structure BufferHistory (α : Type) where
  buffer : Buffer α
  added : List α
  /-- The batches that have not been resolved. -/
  out : List (Batch α)
  accepted : List (Entry α)
  /-- The entries that were gone after an action that did not accept them. -/
  lost : List (Entry α)

namespace BufferHistory

variable {α : Type}

def start (capacity : Nat) : BufferHistory α := ⟨Buffer.make capacity, [], [], [], []⟩

/-- Goes on to what an action made of the buffer. The action added some items
and accepted a batch; all else that is not there any more is lost. -/
def advance (h : BufferHistory α) (buffer : Buffer α) (items : List α) (taken : Batch α) :
    BufferHistory α :=
  let before := h.buffer.contents ++ Entry.numbered h.added.length items
  { h with
    buffer := buffer
    added := h.added ++ items
    accepted := h.accepted ++ taken
    lost := h.lost ++ before.filter fun e => !Batch.covers (buffer.contents ++ taken) e }

/-- Runs an action. A batch that is not out cannot be resolved. -/
def step (h : BufferHistory α) : BufferAction α → BufferHistory α
  | .add x => h.advance (h.buffer.add x) [x] []
  | .addAll xs => h.advance (h.buffer.addAll xs) xs []
  | .batch n =>
    { h.advance (h.buffer.batch n).1 [] [] with out := h.out ++ [(h.buffer.batch n).2] }
  | .accept i =>
    match h.out[i]? with
    | some batch =>
      { h.advance (h.buffer.accept batch) [] batch with out := h.out.eraseIdx i }
    | none => h
  | .reject i =>
    match h.out[i]? with
    | some batch => { h.advance (h.buffer.reject batch) [] [] with out := h.out.eraseIdx i }
    | none => h

def run (h : BufferHistory α) (actions : List (BufferAction α)) : BufferHistory α :=
  actions.foldl step h

structure Sound (h : BufferHistory α) : Prop where
  valid : h.buffer.Valid
  nextSeq : h.buffer.nextSeq = h.added.length
  inFlight : h.buffer.inFlight.Perm (h.out.flatten.map Entry.seq)
  inFlight_nodup : h.buffer.inFlight.Nodup
  out_subset : ∀ batch ∈ h.out, batch ⊆ h.buffer.contents
  out_sorted : ∀ batch ∈ h.out, batch.Pairwise fun e f => e.seq < f.seq
  places : (h.buffer.contents ++ h.accepted ++ h.lost).Perm (Entry.numbered 0 h.added)
  lost_length : h.lost.length = h.buffer.dropped

theorem sound_start (capacity : Nat) : (start capacity : BufferHistory α).Sound where
  valid := Buffer.valid_make capacity
  nextSeq := rfl
  inFlight := List.Perm.refl _
  inFlight_nodup := List.nodup_nil
  out_subset := by simp [start]
  out_sorted := by simp [start]
  places := List.Perm.refl _
  lost_length := rfl

variable {h : BufferHistory α}

/-- Among all that has been added, what is kept and what is new has numbers of
its own. -/
theorem Sound.distinct (hs : h.Sound) (items : List α) :
    ((h.buffer.contents ++ Entry.numbered h.added.length items).map Entry.seq).Nodup := by
  have hp := hs.places.append_right (Entry.numbered h.added.length items)
  have hall := Entry.numbered_append 0 h.added items
  rw [Nat.zero_add] at hall
  rw [← hall] at hp
  have hd := (hp.map Entry.seq).nodup_iff.2 (Entry.nodup_of_sorted (Entry.sorted_numbered _ _))
  refine hd.sublist (List.Sublist.map _ (List.Sublist.append_right ?_ _))
  rw [List.append_assoc]
  exact List.sublist_append_left _ _

/-- The one place where entries are counted: if an action left all entries but
`gone` where they belong and counted those, the history still adds up. -/
theorem Sound.advance (hs : h.Sound) (buffer : Buffer α) (items : List α) (taken gone : Batch α)
    (hp : (h.buffer.contents ++ Entry.numbered h.added.length items).Perm
      (buffer.contents ++ taken ++ gone))
    (hn : buffer.dropped = h.buffer.dropped + gone.length) :
    (buffer.contents ++ (h.advance buffer items taken).accepted ++
        (h.advance buffer items taken).lost).Perm (Entry.numbered 0 (h.added ++ items)) ∧
      (h.advance buffer items taken).lost.length = buffer.dropped := by
  have hfallen := Batch.perm_filter_not_covers (hs.distinct items) hp
  have hall := Entry.numbered_append 0 h.added items
  rw [Nat.zero_add] at hall
  constructor
  · classical
    have hplaces := hs.places
    rw [hall]
    rw [List.perm_iff_count] at hp hfallen hplaces ⊢
    intro e
    have h₁ := hp e
    have h₂ := hfallen e
    have h₃ := hplaces e
    simp only [BufferHistory.advance, List.count_append] at h₁ h₂ h₃ ⊢
    omega
  · simp only [BufferHistory.advance, List.length_append, hfallen.length_eq, hs.lost_length, hn]

/-! ### Batches that are out -/

theorem Sound.perm_inFlight (hs : h.Sound) {i : Nat} {batch : Batch α}
    (hb : h.out[i]? = some batch) :
    h.buffer.inFlight.Perm (batch.map Entry.seq ++ (h.out.eraseIdx i).flatten.map Entry.seq) := by
  refine hs.inFlight.trans ?_
  rw [← List.map_append]
  exact (perm_cons_eraseIdx hb).flatten.map _

theorem Sound.disjoint_out (hs : h.Sound) {i : Nat} {batch : Batch α}
    (hb : h.out[i]? = some batch) :
    ∀ s ∈ (h.out.eraseIdx i).flatten.map Entry.seq, s ∉ batch.map Entry.seq := by
  have hd := (hs.perm_inFlight hb).nodup_iff.1 hs.inFlight_nodup
  exact fun s hs hc => (List.nodup_append.1 hd).2.2 s hc s hs rfl

/-- Taking a batch back leaves the numbers of the other ones in flight. -/
theorem Sound.inFlight_resolve (hs : h.Sound) {i : Nat} {batch : Batch α}
    (hb : h.out[i]? = some batch) :
    (h.buffer.resolve batch).inFlight.Perm ((h.out.eraseIdx i).flatten.map Entry.seq) := by
  have hp := (hs.perm_inFlight hb).filter fun s => !batch.seqs.contains s
  have hnone : (batch.map Entry.seq).filter (fun s => !batch.seqs.contains s) = [] :=
    batch.filter_seqs_self
  have hall : ((h.out.eraseIdx i).flatten.map Entry.seq).filter
      (fun s => !batch.seqs.contains s) = (h.out.eraseIdx i).flatten.map Entry.seq := by
    rw [List.filter_eq_self]
    intro s hsm
    simpa [Batch.seqs] using hs.disjoint_out hb s hsm
  rwa [List.filter_append, hnone, hall, List.nil_append] at hp

theorem Sound.not_covers (hs : h.Sound) {i : Nat} {batch other : Batch α}
    (hb : h.out[i]? = some batch) (ho : other ∈ h.out.eraseIdx i) {e : Entry α} (he : e ∈ other) :
    batch.covers e = false := by
  have hmem : e.seq ∈ (h.out.eraseIdx i).flatten.map Entry.seq :=
    List.mem_map_of_mem (List.mem_flatten.2 ⟨other, ho, he⟩)
  rw [← Bool.not_eq_true, Batch.covers_iff]
  exact hs.disjoint_out hb _ hmem

theorem Sound.isOut_of_mem_out (hs : h.Sound) {batch : Batch α} (hb : batch ∈ h.out) {e : Entry α}
    (he : e ∈ batch) : h.buffer.isOut e = true :=
  Buffer.isOut_iff.2 (hs.inFlight.mem_iff.2
    (List.mem_map_of_mem (List.mem_flatten.2 ⟨batch, hb, he⟩)))

/-! ### What each action keeps -/

theorem Sound.addAll (hs : h.Sound) (xs : List α) : (h.step (.addAll xs)).Sound := by
  obtain ⟨hi, hn, ha⟩ := Buffer.accounts_addAll h.buffer xs
  rw [hs.nextSeq] at ha hn
  obtain ⟨hplaces, hlost⟩ : _ ∧ _ := by
    obtain ⟨gone, hp, -, hn⟩ := ha
    exact hs.advance (h.buffer.addAll xs) xs [] gone (by simpa using hp) hn
  refine ⟨hs.valid.addAll xs, ?_, ?_, ?_, ?_, hs.out_sorted, hplaces, hlost⟩
  · simpa [step, BufferHistory.advance] using hn
  · exact hi ▸ hs.inFlight
  · exact hi ▸ hs.inFlight_nodup
  · intro batch hb e he
    refine ha.mem_contents (List.mem_append_left _ (hs.out_subset batch hb he)) ?_
    rw [Buffer.isOut_congr hi]
    exact hs.isOut_of_mem_out hb he

theorem Sound.batch (hs : h.Sound) (n : Nat) : (h.step (.batch n)).Sound := by
  have hsub := Buffer.batch_sublist h.buffer n
  have hsorted := hs.valid.sorted.sublist hsub
  obtain ⟨hplaces, hlost⟩ := hs.advance (h.buffer.batch n).1 [] [] [] (by simp) rfl
  refine ⟨hs.valid.batch n, ?_, ?_, ?_, ?_, ?_, hplaces, hlost⟩
  · simpa [step, BufferHistory.advance, Buffer.batch] using hs.nextSeq
  · simpa [step, BufferHistory.advance, Buffer.batch, Batch.seqs] using hs.inFlight.append_right _
  · refine List.nodup_append.2 ⟨hs.inFlight_nodup, Entry.nodup_of_sorted hsorted, ?_⟩
    intro s hin t ht heq
    obtain ⟨e, he, rfl⟩ := List.mem_map.1 ht
    have hout := Buffer.isOut_of_mem_batch he
    rw [← Bool.not_eq_true, Buffer.isOut_iff] at hout
    exact hout (heq ▸ hin)
  · intro batch hb
    rcases List.mem_append.1 hb with hb | hb
    · exact hs.out_subset batch hb
    · rw [List.mem_singleton.1 hb]
      exact List.Subset.trans hsub.subset (Buffer.entries_subset_contents _)
  · intro batch hb
    rcases List.mem_append.1 hb with hb | hb
    · exact hs.out_sorted batch hb
    · rw [List.mem_singleton.1 hb]
      exact hsorted

theorem Sound.accept (hs : h.Sound) (i : Nat) : (h.step (.accept i)).Sound := by
  simp only [step]
  split
  · next batch hb =>
    have hmem := List.mem_of_getElem? hb
    have herase := List.eraseIdx_subset (l := h.out) (k := i)
    have hd := Entry.nodup_of_sorted (hs.out_sorted batch hmem)
    have hp := Buffer.perm_contents_accept hs.valid.distinct hd (hs.out_subset batch hmem)
    obtain ⟨hplaces, hlost⟩ := hs.advance (h.buffer.accept batch) [] batch []
      (by simpa using hp) rfl
    refine ⟨hs.valid.accept batch, ?_, hs.inFlight_resolve hb, hs.inFlight_nodup.filter _, ?_,
      fun other ho => hs.out_sorted other (herase ho), hplaces, hlost⟩
    · simpa [BufferHistory.advance, Buffer.accept, Buffer.resolve] using hs.nextSeq
    · intro other ho e he
      simp only [BufferHistory.advance]
      rw [Buffer.contents_accept, List.mem_filter, hs.not_covers hb ho he]
      exact ⟨hs.out_subset other (herase ho) he, rfl⟩
  · exact hs

theorem Sound.reject (hs : h.Sound) (i : Nat) : (h.step (.reject i)).Sound := by
  simp only [step]
  split
  · next batch hb =>
    have ha := Buffer.accounts_reject h.buffer batch
    have herase := List.eraseIdx_subset (l := h.out) (k := i)
    obtain ⟨hplaces, hlost⟩ : _ ∧ _ := by
      obtain ⟨gone, hp, -, hn⟩ := ha
      exact hs.advance (h.buffer.reject batch) [] [] gone (by simpa using hp) hn
    refine ⟨hs.valid.reject batch, ?_, hs.inFlight_resolve hb, hs.inFlight_nodup.filter _, ?_,
      fun other ho => hs.out_sorted other (herase ho), hplaces, hlost⟩
    · simpa [BufferHistory.advance, Buffer.reject, Buffer.cut, Buffer.discard, Buffer.resolve]
        using hs.nextSeq
    · intro other ho e he
      refine ha.mem_contents (hs.out_subset other (herase ho) he) ?_
      have hresolve := Buffer.isOut_resolve h.buffer batch e
      rw [hs.isOut_of_mem_out (herase ho) he, hs.not_covers hb ho he] at hresolve
      exact hresolve
  · exact hs

theorem Sound.step (hs : h.Sound) (a : BufferAction α) : (h.step a).Sound := by
  cases a with
  | add x => exact hs.addAll [x]
  | addAll xs => exact hs.addAll xs
  | batch n => exact hs.batch n
  | accept i => exact hs.accept i
  | reject i => exact hs.reject i

theorem Sound.run (hs : h.Sound) (actions : List (BufferAction α)) : (h.run actions).Sound := by
  induction actions generalizing h with
  | nil => exact hs
  | cons a rest ih => exact ih (hs.step a)

theorem capacity_step (h : BufferHistory α) (a : BufferAction α) :
    (h.step a).buffer.capacity = h.buffer.capacity := by
  cases a with
  | add x => exact h.buffer.capacity_add x
  | addAll xs => exact h.buffer.capacity_addAll xs
  | batch n => rfl
  | accept i => simp only [step]; split <;> rfl
  | reject i => simp only [step]; split <;> rfl

theorem capacity_run (h : BufferHistory α) (actions : List (BufferAction α)) :
    (h.run actions).buffer.capacity = h.buffer.capacity := by
  induction actions generalizing h with
  | nil => rfl
  | cons a rest ih => exact (ih (h.step a)).trans (h.capacity_step a)

/-! ### Every entry is somewhere -/

/-- After any actions on a new buffer, the entries held are in order and no more
than the buffer can hold. No entry is in two of the batches that are out, each
of these lists its entries oldest first, their numbers are the ones in flight,
and every one of those is held or displaced. Each entry that was ever added is
held, displaced, accepted or lost, and only one of these, as all numbers differ;
and the lost ones are as many as the buffer has dropped. -/
theorem every_entry_in_one_place (capacity : Nat) (actions : List (BufferAction α)) :
    let h := (start capacity : BufferHistory α).run actions
    (h.buffer.capacity = max capacity 1 ∧ h.buffer.size ≤ h.buffer.capacity ∧
        h.buffer.entries.Pairwise fun e f => e.seq < f.seq) ∧
      ((h.out.flatten.map Entry.seq).Nodup ∧
        ∀ batch ∈ h.out, batch.Pairwise fun e f => e.seq < f.seq) ∧
      (h.buffer.inFlight.Nodup ∧ h.buffer.inFlight.Perm (h.out.flatten.map Entry.seq) ∧
        ∀ e ∈ h.out.flatten, e ∈ h.buffer.entries ∨ e ∈ h.buffer.displaced) ∧
      ((h.buffer.entries ++ h.buffer.displaced ++ h.accepted ++ h.lost).map Entry.seq).Nodup ∧
      (h.buffer.entries ++ h.buffer.displaced ++ h.accepted ++ h.lost).Perm
        (Entry.numbered 0 h.added) ∧
      h.lost.length = h.buffer.dropped := by
  intro h
  have hs : h.Sound := (sound_start capacity).run actions
  refine ⟨⟨capacity_run _ _, hs.valid.size_le, hs.valid.sorted⟩,
    ⟨hs.inFlight.nodup_iff.1 hs.inFlight_nodup, hs.out_sorted⟩,
    ⟨hs.inFlight_nodup, hs.inFlight, ?_⟩, ?_, hs.places, hs.lost_length⟩
  · intro e he
    obtain ⟨batch, hb, he⟩ := List.mem_flatten.1 he
    exact List.mem_append.1 (hs.out_subset batch hb he)
  · exact (hs.places.map Entry.seq).nodup_iff.2 (Entry.nodup_of_sorted (Entry.sorted_numbered _ _))

/-- The first batch is pushed out while it is being written. When it comes back,
the newest entries have to go. -/
example :
    ((start 3).run [.addAll [1, 2, 3], .batch 2, .addAll [4, 5], .reject 0]).lost =
      [⟨3, 4⟩, ⟨4, 5⟩] := by
  decide

end BufferHistory

end MetricAgent
