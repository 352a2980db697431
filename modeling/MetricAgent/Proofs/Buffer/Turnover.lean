import MetricAgent.Proofs.Buffer.Rejection

/-!
# From rest to rest

A buffer is at rest while no batch is out. Then a batch is the beginning of what
it holds. If the batch is resolved, whatever came in meanwhile, the buffer is at
rest again, and `Buffer.Turnover` says what has become of the entries: some were
accepted, the oldest, and in their order; all others are held, or were dropped
and counted. A stretch of that kind followed by another one is one stretch
(`Turnover.trans`), so it does not matter how often batches were taken, or how
many of them came back.

If the batch came back, all of it stands at the front
(`Underway.prefix_reject`): its entries are the oldest, and there is room for them.
-/

namespace MetricAgent

namespace Buffer

variable {α : Type} {b c d : Buffer α} {xs ys : List α} {taken more : Batch α}

theorem Valid.displaced_eq_nil (h : b.Valid) (hidle : b.inFlight = []) : b.displaced = [] := by
  refine List.eq_nil_iff_forall_not_mem.2 fun e he => ?_
  have hout := h.isOut_displaced e he
  rw [isOut_iff, hidle] at hout
  cases hout

theorem Valid.contents_of_idle (h : b.Valid) (hidle : b.inFlight = []) :
    b.contents = b.entries := by
  rw [contents, h.displaced_eq_nil hidle, List.append_nil]

theorem batch_of_idle (hidle : b.inFlight = []) (n : Nat) :
    b.batch n = ({ b with inFlight := Batch.seqs (b.entries.take n) }, b.entries.take n) := by
  have hall : (b.entries.filter fun e => !b.isOut e) = b.entries := by
    rw [List.filter_eq_self]
    intro e _
    simp [isOut, hidle]
  simp only [batch, hall, hidle, List.nil_append]

theorem not_contains_seqs_batch {n s : Nat} (hs : s ∈ b.inFlight) :
    (b.batch n).2.seqs.contains s = false := by
  refine Bool.eq_false_iff.2 fun hc => ?_
  obtain ⟨e, he, rfl⟩ := List.mem_map.1 (List.contains_iff_mem.1 hc)
  exact Bool.false_ne_true ((isOut_of_mem_batch he).symm.trans (isOut_iff.2 hs))

theorem resolve_batch (b : Buffer α) (n : Nat) : (b.batch n).1.resolve (b.batch n).2 = b := by
  have hkept : (b.inFlight.filter fun s => !(b.batch n).2.seqs.contains s) = b.inFlight := by
    rw [List.filter_eq_self]
    intro s hs
    rw [not_contains_seqs_batch hs, Bool.not_false]
  change ({ b with inFlight := (b.inFlight ++ (b.batch n).2.seqs).filter _ } : Buffer α) = b
  rw [List.filter_append, hkept, Batch.filter_seqs_self, List.append_nil]

theorem cut_of_size_le (h : b.size ≤ b.capacity) : b.cut = b := by
  rw [size] at h
  rw [cut, List.take_of_length_le h, List.drop_eq_nil_of_le h]
  simp only [discard, List.filter_nil, List.countP_nil, List.append_nil, Nat.add_zero]

/-- A batch that comes back before anything came in leaves no trace. -/
theorem Valid.reject_batch (h : b.Valid) (n : Nat) : (b.batch n).1.reject (b.batch n).2 = b := by
  have hcovers : ∀ e ∈ b.displaced, (b.batch n).2.covers e = false := fun e he =>
    not_contains_seqs_batch (isOut_iff.1 (h.isOut_displaced e he))
  have hown : b.displaced.filter (b.batch n).2.covers = [] := by
    rw [List.filter_eq_nil_iff]
    intro e he
    rw [hcovers e he]
    exact Bool.false_ne_true
  have hothers : (b.displaced.filter fun e => !(b.batch n).2.covers e) = b.displaced := by
    rw [List.filter_eq_self]
    intro e he
    rw [hcovers e he, Bool.not_false]
  simp only [Buffer.reject, resolve_batch, hown, hothers, List.foldl_nil]
  exact cut_of_size_le h.size_le

theorem filter_not_covers_take {es : List (Entry α)} (h : es.Pairwise fun e f => e.seq < f.seq)
    (n : Nat) : (es.filter fun e => !Batch.covers (es.take n) e) = es.drop n := by
  have hp := Batch.perm_filter_not_covers (Entry.nodup_of_sorted h)
    (List.Perm.of_eq (List.take_append_drop n es).symm)
  exact hp.eq_of_pairwise (fun e f _ _ hef hfe => absurd hef (Nat.lt_asymm hfe))
    (h.filter _) (h.sublist (List.drop_sublist n es))

/-- A batch is taken and accepted while no other one is out. -/
theorem Valid.accept_batch (h : b.Valid) (hidle : b.inFlight = []) (n : Nat) :
    (b.batch n).1.accept (b.batch n).2 = { b with entries := b.entries.drop n } := by
  have hrest := filter_not_covers_take h.sorted n
  rw [batch_of_idle hidle]
  simp only [Buffer.accept, resolve, hrest, Batch.filter_seqs_self, h.displaced_eq_nil hidle,
    List.filter_nil, hidle]

theorem Valid.drop (h : b.Valid) (hidle : b.inFlight = []) (n : Nat) :
    ({ b with entries := b.entries.drop n } : Buffer α).Valid := by
  rw [← h.accept_batch hidle n]
  exact (h.batch n).accept _

/-! ### A batch that is out -/

/-- The entries held and those that come in, in the order of their numbers. -/
theorem Valid.sorted_stock (h : b.Valid) (xs : List α) :
    (b.entries ++ Entry.numbered b.nextSeq xs).Pairwise fun e f => e.seq < f.seq := by
  refine List.pairwise_append.2 ⟨h.sorted, Entry.sorted_numbered _ _, fun e he f hf => ?_⟩
  have hold := h.lt_nextSeq e (entries_subset_contents b he)
  have hnew := (Entry.seq_numbered hf).1
  omega

/-- All that is not in the batch is newer. -/
theorem Valid.newer_of_not_mem (h : b.Valid) {n : Nat} {e f : Entry α} (he : e ∈ b.entries.take n)
    (hf : f ∈ b.entries ++ Entry.numbered b.nextSeq xs) (hnot : f ∉ b.entries.take n) :
    e.seq < f.seq := by
  have hsorted := h.sorted_stock xs
  rw [← List.take_append_drop n b.entries, List.append_assoc] at hsorted hf
  exact (List.pairwise_append.1 hsorted).2.2 e he f ((List.mem_append.1 hf).resolve_left hnot)

/-- The buffer `c` has a batch of at most `n` entries of `b` out, and `xs` have come in. -/
structure Underway (b : Buffer α) (n : Nat) (xs : List α) (c : Buffer α) : Prop where
  valid : c.Valid
  inFlight : c.inFlight = Batch.seqs (b.entries.take n)
  capacity : c.capacity = b.capacity
  nextSeq : c.nextSeq = b.nextSeq + xs.length
  size_le : b.size ≤ c.size
  accounts : c.Accounts (b.entries ++ Entry.numbered b.nextSeq xs) b.dropped

theorem size_le_size_add (b : Buffer α) (x : α) : b.size ≤ (b.add x).size := by
  simp only [size, add, List.length_append, List.length_singleton]
  unfold makeRoom
  split
  · omega
  · rw [entries_discard, List.length_drop]
    omega

theorem size_le_size_addAll (b : Buffer α) (xs : List α) : b.size ≤ (b.addAll xs).size := by
  induction xs generalizing b with
  | nil => exact Nat.le_refl _
  | cons x xs ih => exact Nat.le_trans (b.size_le_size_add x) (ih (b.add x))

theorem Valid.underway (h : b.Valid) (hidle : b.inFlight = []) (n : Nat) (xs : List α) :
    b.Underway n xs ((b.batch n).1.addAll xs) := by
  obtain ⟨hi, hn, ha⟩ := accounts_addAll (b.batch n).1 xs
  have hflight : (b.batch n).1.inFlight = Batch.seqs (b.entries.take n) := by
    rw [batch_of_idle hidle]
  refine ⟨(h.batch n).addAll xs, hi.trans hflight, ?_, hn, ?_, ?_⟩
  · rw [capacity_addAll, capacity_batch]
  · exact size_le_size_addAll (b.batch n).1 xs
  · rwa [contents_batch, h.contents_of_idle hidle] at ha

section Underway

variable {n : Nat}

theorem Underway.subset_contents (hu : b.Underway n xs c) : b.entries.take n ⊆ c.contents := by
  intro e he
  refine hu.accounts.mem_contents (List.mem_append_left _ (List.mem_of_mem_take he)) ?_
  rw [isOut_iff, hu.inFlight]
  exact List.mem_map_of_mem he

/-- Nothing is out once the batch is resolved. -/
theorem Underway.inFlight_resolve (hu : b.Underway n xs c) :
    (c.resolve (b.entries.take n)).inFlight = [] := by
  rw [resolve, hu.inFlight, Batch.filter_seqs_self]

theorem Valid.distinct_take (h : b.Valid) (n : Nat) : ((b.entries.take n).map Entry.seq).Nodup :=
  Entry.nodup_of_sorted (h.sorted.sublist (List.take_sublist n _))

theorem Underway.perm_accept (h : b.Valid) (hu : b.Underway n xs c) :
    c.contents.Perm ((c.accept (b.entries.take n)).entries ++ b.entries.take n) := by
  have hperm := perm_contents_accept hu.valid.distinct (h.distinct_take n) hu.subset_contents
  rwa [(hu.valid.accept _).contents_of_idle hu.inFlight_resolve] at hperm

/-- A batch that was written makes room for no more entries than it had. -/
theorem Underway.size_le_accept (h : b.Valid) (hu : b.Underway n xs c) :
    b.size ≤ (c.accept (b.entries.take n)).size + (b.entries.take n).length := by
  have hlen := (hu.perm_accept h).length_eq
  have hle := hu.size_le
  rw [contents, List.length_append, List.length_append] at hlen
  rw [size, size] at hle ⊢
  omega

/-- A batch that comes back stands at the front, complete and in order. -/
theorem Underway.prefix_reject (h : b.Valid) (hu : b.Underway n xs c) :
    b.entries.take n <+: (c.reject (b.entries.take n)).entries := by
  let out := b.entries.take n
  have hout : out ⊆ c.rivals out := by
    intro e he
    rcases List.mem_append.1 (hu.subset_contents he) with hc | hc
    · exact List.mem_append_left _ hc
    · exact List.mem_append_right _ (List.mem_filter.2 ⟨hc, Batch.covers_of_mem he⟩)
  have hd := hu.valid.distinct_rivals out
  let others := (c.rivals out).filter fun e => !Batch.covers out e
  have hperm : (c.rivals out).Perm (out ++ Entry.inOrder others) :=
    calc c.rivals out
      _ |>.Perm ((c.rivals out).filter (Batch.covers out) ++ others) :=
        (List.filter_append_perm _ _).symm
      _ |>.Perm (out ++ Entry.inOrder others) :=
        (Batch.perm_filter_covers hd (h.distinct_take n) hout).append (Entry.perm_inOrder _).symm
  have hsorted : (out ++ Entry.inOrder others).Pairwise fun e f => e.seq < f.seq := by
    refine List.pairwise_append.2 ⟨h.sorted.sublist (List.take_sublist n _),
      Entry.sorted_inOrder (hd.sublist (List.filter_sublist.map _)), fun e he f hf => ?_⟩
    obtain ⟨hf, hc⟩ := List.mem_filter.1 ((Entry.perm_inOrder _).mem_iff.1 hf)
    have hstock := hu.accounts.subset ((c.rivals_sublist out).subset hf)
    refine h.newer_of_not_mem he hstock fun hmem => ?_
    rw [Batch.covers_of_mem hmem] at hc
    exact Bool.false_ne_true hc
  have hfits : out.length ≤ c.capacity := by
    have hle := h.size_le
    rw [hu.capacity, List.length_take]
    rw [size] at hle
    omega
  rw [hu.valid.entries_reject, Entry.oldest, Entry.inOrder_eq hperm hsorted, List.take_append,
    List.take_of_length_le hfits]
  exact List.prefix_append _ _

end Underway

/-! ### Stretches from rest to rest -/

/-- What has become of the entries between two moments at which no batch was out:
the items `xs` came in, the entries `taken` were accepted, and all others are
held or were dropped. -/
structure Turnover (b : Buffer α) (xs : List α) (taken : Batch α) (c : Buffer α) : Prop where
  valid : c.Valid
  idle : c.inFlight = []
  nextSeq : c.nextSeq = b.nextSeq + xs.length
  sorted : (taken ++ c.entries).Pairwise fun e f => e.seq < f.seq
  balance : ∃ lost, (b.entries ++ Entry.numbered b.nextSeq xs).Perm (taken ++ c.entries ++ lost) ∧
    c.dropped = b.dropped + lost.length

theorem Valid.turnover (h : b.Valid) (hidle : b.inFlight = []) : b.Turnover [] [] b :=
  ⟨h, hidle, rfl, h.sorted, [], by simp, rfl⟩

theorem Turnover.subset (ht : b.Turnover xs taken c) :
    taken ++ c.entries ⊆ b.entries ++ Entry.numbered b.nextSeq xs := by
  obtain ⟨lost, hp, -⟩ := ht.balance
  exact fun e he => hp.mem_iff.2 (List.mem_append_left _ he)

theorem Turnover.lt_nextSeq (h : b.Valid) (ht : b.Turnover xs taken c) {e : Entry α}
    (he : e ∈ taken) : e.seq < c.nextSeq := by
  rw [ht.nextSeq]
  rcases List.mem_append.1 (ht.subset (List.mem_append_left _ he)) with he | he
  · have := h.lt_nextSeq e (entries_subset_contents b he)
    omega
  · exact (Entry.seq_numbered he).2

theorem Turnover.trans (h : b.Valid) (hbc : b.Turnover xs taken c) (hcd : c.Turnover ys more d) :
    b.Turnover (xs ++ ys) (taken ++ more) d := by
  refine ⟨hcd.valid, hcd.idle, ?_, ?_, ?_⟩
  · rw [hcd.nextSeq, hbc.nextSeq, List.length_append, Nat.add_assoc]
  · rw [List.append_assoc]
    obtain ⟨htaken, -, hlt⟩ := List.pairwise_append.1 hbc.sorted
    refine List.pairwise_append.2 ⟨htaken, hcd.sorted, fun e he f hf => ?_⟩
    rcases List.mem_append.1 (hcd.subset hf) with hf | hf
    · exact hlt e he f hf
    · exact Nat.lt_of_lt_of_le (hbc.lt_nextSeq h he) (Entry.seq_numbered hf).1
  · obtain ⟨lost, hp, hn⟩ := hbc.balance
    obtain ⟨later, hp', hn'⟩ := hcd.balance
    refine ⟨lost ++ later, ?_, ?_⟩
    · rw [Entry.numbered_append, ← hbc.nextSeq]
      classical
      rw [List.perm_iff_count] at hp hp' ⊢
      intro e
      have h₁ := hp e
      have h₂ := hp' e
      simp only [List.count_append] at h₁ h₂ ⊢
      omega
    · rw [List.length_append]
      omega

/-- Where nothing was dropped, what was accepted and what is held are all there
was, in order. -/
theorem Turnover.append_eq (h : b.Valid) (ht : b.Turnover xs taken c)
    (hd : c.dropped = b.dropped) :
    taken ++ c.entries = b.entries ++ Entry.numbered b.nextSeq xs := by
  obtain ⟨lost, hp, hn⟩ := ht.balance
  obtain rfl : lost = [] := List.eq_nil_of_length_eq_zero (by omega)
  rw [List.append_nil] at hp
  exact hp.symm.eq_of_pairwise (fun e f _ _ hef hfe => absurd hef (Nat.lt_asymm hfe)) ht.sorted
    (h.sorted_stock xs)

theorem Underway.turnover_accept {n : Nat} (h : b.Valid) (hu : b.Underway n xs c) :
    b.Turnover xs (b.entries.take n) (c.accept (b.entries.take n)) := by
  let out := b.entries.take n
  have hv := hu.valid.accept out
  obtain ⟨gone, hp, -, hn⟩ := hu.accounts
  have hstock : (b.entries ++ Entry.numbered b.nextSeq xs).Perm
      (out ++ (c.accept out).entries ++ gone) :=
    hp.trans (((hu.perm_accept h).trans List.perm_append_comm).append_right gone)
  refine ⟨hv, hu.inFlight_resolve, hu.nextSeq, ?_, gone, hstock, hn⟩
  refine List.pairwise_append.2 ⟨h.sorted.sublist (List.take_sublist n _), hv.sorted,
    fun e he f hf => ?_⟩
  obtain ⟨hf, hc⟩ := List.mem_filter.1 hf
  refine h.newer_of_not_mem he (hu.accounts.subset (entries_subset_contents c hf)) fun hmem => ?_
  rw [Batch.covers_of_mem hmem] at hc
  exact Bool.false_ne_true hc

theorem Underway.turnover_reject {n : Nat} (hu : b.Underway n xs c) :
    b.Turnover xs [] (c.reject (b.entries.take n)) := by
  have hv := hu.valid.reject (b.entries.take n)
  obtain ⟨gone, hp, -, hn⟩ := hu.accounts
  obtain ⟨last, hp', -, hn'⟩ := c.accounts_reject (b.entries.take n)
  rw [hv.contents_of_idle hu.inFlight_resolve] at hp'
  refine ⟨hv, hu.inFlight_resolve, hu.nextSeq, hv.sorted, last ++ gone, ?_, ?_⟩
  · rw [List.nil_append, ← List.append_assoc]
    exact hp.trans (hp'.append_right gone)
  · rw [List.length_append]
    omega

end Buffer

end MetricAgent
