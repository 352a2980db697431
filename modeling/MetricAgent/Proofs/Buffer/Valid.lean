import MetricAgent.Proofs.Buffer.Contents

/-!
# Valid buffers

A buffer is valid if it holds no more than it can, if its entries stand in the
order of their numbers, if no number occurs twice in its contents, and if all
that is displaced is in a batch and all that is in a batch is there. Every
operation keeps a buffer valid, whatever batch it is called with. So validity
needs no knowledge of the batches that are out.
-/

namespace MetricAgent

namespace Buffer

variable {α : Type}

structure Valid (b : Buffer α) : Prop where
  capacity_pos : 0 < b.capacity
  size_le : b.size ≤ b.capacity
  sorted : b.entries.Pairwise fun e f => e.seq < f.seq
  distinct : (b.contents.map Entry.seq).Nodup
  lt_nextSeq : ∀ e ∈ b.contents, e.seq < b.nextSeq
  isOut_displaced : ∀ e ∈ b.displaced, b.isOut e = true
  inFlight_mem : ∀ s ∈ b.inFlight, s ∈ b.contents.map Entry.seq

theorem isOut_iff {b : Buffer α} {e : Entry α} : b.isOut e = true ↔ e.seq ∈ b.inFlight := by
  simp [isOut]

theorem isOut_congr {b c : Buffer α} (h : b.inFlight = c.inFlight) (e : Entry α) :
    b.isOut e = c.isOut e := by
  rw [isOut, isOut, h]

theorem entries_subset_contents (b : Buffer α) : b.entries ⊆ b.contents :=
  List.subset_append_left _ _

theorem displaced_subset_contents (b : Buffer α) : b.displaced ⊆ b.contents :=
  List.subset_append_right _ _

theorem valid_make (capacity : Nat) : (make capacity : Buffer α).Valid where
  capacity_pos := Nat.lt_of_lt_of_le Nat.zero_lt_one (Nat.le_max_right _ _)
  size_le := Nat.zero_le _
  sorted := List.Pairwise.nil
  distinct := List.nodup_nil
  lt_nextSeq := by simp [contents, make]
  isOut_displaced := by simp [make]
  inFlight_mem := by simp [make]

/-- Numbers that were in flight are still those of contents, where nothing in a
batch was lost. -/
theorem Accounts.inFlight_mem {b c : Buffer α} {es : List (Entry α)} {n : Nat}
    (h : c.Accounts es n) (hs : b.contents ⊆ es)
    (hi : ∀ s ∈ c.inFlight, s ∈ b.contents.map Entry.seq) :
    ∀ s ∈ c.inFlight, s ∈ c.contents.map Entry.seq := by
  intro s hsc
  obtain ⟨e, he, rfl⟩ := List.mem_map.1 (hi s hsc)
  exact List.mem_map_of_mem (h.mem_contents (hs he) (isOut_iff.2 hsc))

/-! ### Adding -/

theorem Valid.makeRoom {b : Buffer α} (h : b.Valid) :
    b.makeRoom.entries.length < b.capacity ∧ b.makeRoom.entries.Sublist b.entries ∧
      ∀ e ∈ b.makeRoom.displaced, b.isOut e = true := by
  unfold Buffer.makeRoom
  split
  · next hlt => exact ⟨hlt, List.Sublist.refl _, h.isOut_displaced⟩
  · refine ⟨?_, List.drop_sublist 1 b.entries, ?_⟩
    · have hpos := h.capacity_pos
      have hle := h.size_le
      rw [size] at hle
      rw [entries_discard, List.length_drop]
      omega
    · intro e he
      rw [displaced_discard, List.mem_append] at he
      rcases he with he | he
      · exact h.isOut_displaced e he
      · exact (List.mem_filter.1 he).2

theorem Valid.distinct_new {b : Buffer α} (h : b.Valid) (x : α) :
    ((b.contents ++ [(⟨b.nextSeq, x⟩ : Entry α)]).map Entry.seq).Nodup := by
  rw [List.map_append, List.nodup_append]
  refine ⟨h.distinct, List.nodup_singleton _, ?_⟩
  intro s hs t ht
  obtain ⟨e, he, rfl⟩ := List.mem_map.1 hs
  simp only [List.map_cons, List.map_nil, List.mem_singleton] at ht
  have := h.lt_nextSeq e he
  omega

theorem Valid.add {b : Buffer α} (h : b.Valid) (x : α) : (b.add x).Valid := by
  have ha := accounts_add b x
  obtain ⟨hlt, hsub, hout⟩ := h.makeRoom
  refine ⟨?_, ?_, ?_, ha.nodup (h.distinct_new x), ?_, ?_, ?_⟩
  · rw [capacity_add]
    exact h.capacity_pos
  · simp only [size, Buffer.add, List.length_append, List.length_singleton, capacity_makeRoom]
    exact hlt
  · simp only [Buffer.add, nextSeq_makeRoom]
    refine List.pairwise_append.2 ⟨h.sorted.sublist hsub, List.pairwise_singleton _ _, ?_⟩
    intro e he f hf
    rw [List.mem_singleton.1 hf]
    exact h.lt_nextSeq e (entries_subset_contents b (hsub.subset he))
  · intro e he
    rw [nextSeq_add]
    rcases List.mem_append.1 (ha.subset he) with he | he
    · exact Nat.lt_succ_of_lt (h.lt_nextSeq e he)
    · rw [List.mem_singleton.1 he]
      exact Nat.lt_succ_self _
  · intro e he
    rw [isOut_congr (b.inFlight_add x)]
    exact hout e he
  · exact ha.inFlight_mem (List.subset_append_left _ _) (by simpa using h.inFlight_mem)

theorem Valid.addAll {b : Buffer α} (h : b.Valid) (xs : List α) : (b.addAll xs).Valid := by
  induction xs generalizing b with
  | nil => exact h
  | cons x xs ih => exact ih (h.add x)

/-! ### Batches -/

theorem batch_sublist (b : Buffer α) (n : Nat) : (b.batch n).2.Sublist b.entries :=
  (List.take_sublist _ _).trans List.filter_sublist

theorem isOut_of_mem_batch {b : Buffer α} {n : Nat} {e : Entry α} (h : e ∈ (b.batch n).2) :
    b.isOut e = false := by
  simpa using (List.mem_filter.1 (List.mem_of_mem_take h)).2

theorem Valid.batch {b : Buffer α} (h : b.Valid) (n : Nat) : (b.batch n).1.Valid where
  capacity_pos := h.capacity_pos
  size_le := h.size_le
  sorted := h.sorted
  distinct := h.distinct
  lt_nextSeq := h.lt_nextSeq
  isOut_displaced e he :=
    isOut_iff.2 (List.mem_append_left _ (isOut_iff.1 (h.isOut_displaced e he)))
  inFlight_mem s hs := by
    rcases List.mem_append.1 hs with hs | hs
    · exact h.inFlight_mem s hs
    · obtain ⟨e, he, rfl⟩ := List.mem_map.1 hs
      exact List.mem_map_of_mem (entries_subset_contents b ((batch_sublist b n).subset he))

@[simp] theorem isOut_resolve (b : Buffer α) (out : Batch α) (e : Entry α) :
    (b.resolve out).isOut e = (b.isOut e && !out.covers e) := by
  rw [Bool.eq_iff_iff]
  simp [isOut, resolve, Batch.covers]

theorem Valid.accept {b : Buffer α} (h : b.Valid) (out : Batch α) : (b.accept out).Valid := by
  have hsub : (b.accept out).contents.Sublist b.contents := by
    rw [contents_accept]
    exact List.filter_sublist
  refine ⟨h.capacity_pos, ?_, h.sorted.sublist List.filter_sublist, h.distinct.sublist (hsub.map _),
    fun e he => h.lt_nextSeq e (hsub.subset he), ?_, ?_⟩
  · exact Nat.le_trans (List.length_filter_le _ _) h.size_le
  · intro e he
    obtain ⟨he, hc⟩ := List.mem_filter.1 he
    rw [isOut_congr (show (b.accept out).inFlight = (b.resolve out).inFlight from rfl),
      isOut_resolve, h.isOut_displaced e he, hc]
    rfl
  · intro s hs
    obtain ⟨hs, hc⟩ := List.mem_filter.1 hs
    obtain ⟨e, he, rfl⟩ := List.mem_map.1 (h.inFlight_mem s hs)
    rw [contents_accept]
    exact List.mem_map_of_mem (List.mem_filter.2 ⟨he, hc⟩)

/-! ### Returning a batch to its place -/

theorem sorted_place {e : Entry α} {es : List (Entry α)}
    (h : es.Pairwise fun e f => e.seq < f.seq) (he : e.seq ∉ es.map Entry.seq) :
    (place e es).Pairwise fun e f => e.seq < f.seq := by
  induction es with
  | nil => exact List.pairwise_singleton _ _
  | cons f rest ih =>
      obtain ⟨hf, hrest⟩ := List.pairwise_cons.1 h
      rw [List.map_cons, List.mem_cons, not_or] at he
      unfold place
      split
      · next hlt =>
        refine List.pairwise_cons.2 ⟨fun g hg => ?_, ih hrest he.2⟩
        rcases List.mem_cons.1 ((perm_place e rest).mem_iff.1 hg) with rfl | hg
        · exact hlt
        · exact hf g hg
      · next hlt =>
        have hef : e.seq < f.seq := by omega
        refine List.pairwise_cons.2 ⟨fun g hg => ?_, h⟩
        rcases List.mem_cons.1 hg with rfl | hg
        · exact hef
        · exact Nat.lt_trans hef (hf g hg)

theorem sorted_foldl_place {rs es : List (Entry α)} (h : es.Pairwise fun e f => e.seq < f.seq)
    (hd : ((es ++ rs).map Entry.seq).Nodup) :
    (rs.foldl (fun es e => place e es) es).Pairwise fun e f => e.seq < f.seq := by
  induction rs generalizing es with
  | nil => exact h
  | cons r rs ih =>
      have hp : (es ++ r :: rs).Perm (place r es ++ rs) :=
        List.perm_middle.trans ((perm_place r es).symm.append_right rs)
      refine ih (sorted_place h ?_) ((hp.map _).nodup_iff.1 hd)
      have hd' := ((List.perm_middle.map Entry.seq).nodup_iff.1 hd)
      rw [List.map_cons, List.nodup_cons, List.map_append, List.mem_append, not_or] at hd'
      exact hd'.1.1

theorem Valid.reject {b : Buffer α} (h : b.Valid) (out : Batch α) : (b.reject out).Valid := by
  have ha := accounts_reject b out
  have hperm := (List.filter_append_perm out.covers b.displaced).symm.append_left b.entries
  have hd := (hperm.map Entry.seq).nodup_iff.1 h.distinct
  rw [← List.append_assoc, List.map_append] at hd
  refine ⟨h.capacity_pos, size_cut_le _, ?_, ha.nodup h.distinct,
    fun e he => h.lt_nextSeq e (ha.subset he), ?_, ?_⟩
  · exact (sorted_foldl_place h.sorted (List.nodup_append.1 hd).1).sublist (List.take_sublist _ _)
  · intro e he
    rcases List.mem_append.1 he with he | he
    · obtain ⟨he, hc⟩ := List.mem_filter.1 he
      rw [isOut_congr (show (b.reject out).inFlight = (b.resolve out).inFlight from rfl),
        isOut_resolve, h.isOut_displaced e he, hc]
      rfl
    · exact (List.mem_filter.1 he).2
  · exact ha.inFlight_mem (List.Subset.refl _) fun s hs => h.inFlight_mem s (List.mem_filter.1 hs).1

end Buffer

end MetricAgent
