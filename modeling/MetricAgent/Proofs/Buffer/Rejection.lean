import MetricAgent.Proofs.Buffer.History

/-!
# Batches that come back

A rejected batch returns to its place, and what does not fit any more is pushed
out at the other end. However many batches are out, this has a closed form: of
the entries held and those of the batch that had been displaced, the oldest stay
(`Buffer.Valid.entries_reject`).

Entries of another batch may be pushed out by the way and come back with it. That
does not show in the end, because the oldest of all entries can be looked for
among the oldest of some and all the others (`Entry.oldest_oldest_append`), and
those that were left out once need not be looked at again
(`Entry.oldest_append_readmitted`). So the order in which two batches come back
does not matter.
-/

namespace MetricAgent

namespace Entry

variable {α : Type} {es fs : List (Entry α)}

def inOrder (es : List (Entry α)) : List (Entry α) := es.mergeSort fun e f => e.seq ≤ f.seq

def oldest (n : Nat) (es : List (Entry α)) : List (Entry α) := (inOrder es).take n

/-- What is left of some entries without the `n` oldest. -/
def excess (n : Nat) (es : List (Entry α)) : List (Entry α) := (inOrder es).drop n

theorem perm_inOrder (es : List (Entry α)) : (inOrder es).Perm es := List.mergeSort_perm _ _

theorem inOrder_eq (hperm : es.Perm fs) (h : fs.Pairwise fun e f => e.seq < f.seq) :
    inOrder es = fs :=
  mergeSort_key_eq hperm h

theorem inOrder_eq_self (h : es.Pairwise fun e f => e.seq < f.seq) : inOrder es = es :=
  inOrder_eq (List.Perm.refl es) h

theorem sorted_inOrder (hd : (es.map seq).Nodup) :
    (inOrder es).Pairwise fun e f => e.seq < f.seq := by
  have hne := List.pairwise_map.1 (((perm_inOrder es).map seq).nodup_iff.2 hd)
  exact ((pairwise_mergeSort_key seq es).and hne).imp fun h => Nat.lt_of_le_of_ne h.1 h.2

theorem inOrder_perm (hperm : es.Perm fs) (hd : (es.map seq).Nodup) : inOrder es = inOrder fs :=
  inOrder_eq (hperm.trans (perm_inOrder fs).symm)
    (sorted_inOrder ((hperm.map seq).nodup_iff.1 hd))

theorem oldest_perm (n : Nat) (hperm : es.Perm fs) (hd : (es.map seq).Nodup) :
    oldest n es = oldest n fs := by
  rw [oldest, inOrder_perm hperm hd, oldest]

/-- A beginning of a list decides on the beginning of it with one entry more. -/
theorem take_place_take (e : Entry α) (es : List (Entry α)) (n : Nat) :
    (Buffer.place e (es.take n)).take n = (Buffer.place e es).take n := by
  induction es generalizing n with
  | nil => rw [List.take_nil]
  | cons f rest ih =>
      cases n with
      | zero => rw [List.take_zero, List.take_zero]
      | succ n =>
          rw [List.take_succ_cons]
          unfold Buffer.place
          split
          · rw [List.take_succ_cons, List.take_succ_cons, ih]
          · have hcut : (f :: rest.take n).take n = (f :: rest).take n := by
              rw [← List.take_succ_cons, List.take_take, Nat.min_eq_left (Nat.le_succ n)]
            rw [List.take_succ_cons, List.take_succ_cons, hcut]

theorem oldest_cons (n : Nat) {e : Entry α} (hd : ((e :: es).map seq).Nodup) :
    oldest n (e :: es) = (Buffer.place e (oldest n es)).take n := by
  obtain ⟨hnot, hd⟩ := List.nodup_cons.1 hd
  have hperm := perm_inOrder es
  have hplace : inOrder (e :: es) = Buffer.place e (inOrder es) := by
    refine inOrder_eq ((hperm.symm.cons e).trans (Buffer.perm_place e _).symm) ?_
    exact Buffer.sorted_place (sorted_inOrder hd) fun hc => hnot ((hperm.map seq).mem_iff.1 hc)
  rw [oldest, hplace, oldest, take_place_take]

theorem oldest_oldest (n : Nat) (hd : (es.map seq).Nodup) :
    oldest n (oldest n es) = oldest n es := by
  have hsorted := (sorted_inOrder hd).sublist (List.take_sublist n _)
  calc oldest n (oldest n es)
    _ = (oldest n es).take n := congrArg _ (inOrder_eq_self hsorted)
    _ = oldest n es := by rw [oldest, List.take_take, Nat.min_self]

theorem distinct_append_of_sublist {gs : List (Entry α)} (hd : ((es ++ fs).map seq).Nodup)
    (hs : gs.Sublist (inOrder es)) : ((gs ++ fs).map seq).Nodup := by
  have hperm := (perm_inOrder es).append_right fs
  exact ((hperm.map seq).nodup_iff.2 hd).sublist ((hs.append_right fs).map seq)

/-- The oldest of all can be found among the oldest of some and all the others. -/
theorem oldest_oldest_append (n : Nat) (hd : ((es ++ fs).map seq).Nodup) :
    oldest n (oldest n es ++ fs) = oldest n (es ++ fs) := by
  induction fs with
  | nil =>
      rw [List.append_nil] at hd
      rw [List.append_nil, List.append_nil, oldest_oldest n hd]
  | cons f fs ih =>
      have hd' := (List.perm_middle.map seq).nodup_iff.1 hd
      have hdo := distinct_append_of_sublist hd (List.take_sublist n _)
      calc oldest n (oldest n es ++ f :: fs)
        _ = oldest n (f :: (oldest n es ++ fs)) := oldest_perm n List.perm_middle hdo
        _ = (Buffer.place f (oldest n (oldest n es ++ fs))).take n :=
          oldest_cons n ((List.perm_middle.map seq).nodup_iff.1 hdo)
        _ = (Buffer.place f (oldest n (es ++ fs))).take n := by rw [ih (List.nodup_cons.1 hd').2]
        _ = oldest n (f :: (es ++ fs)) := (oldest_cons n hd').symm
        _ = oldest n (es ++ f :: fs) := (oldest_perm n List.perm_middle hd).symm

theorem oldest_append_excess_sublist (n : Nat) (es : List (Entry α)) (p : Entry α → Bool) :
    (oldest n es ++ (excess n es).filter p).Sublist (inOrder es) := by
  conv_rhs => rw [← List.take_append_drop n (inOrder es)]
  exact List.filter_sublist.append_left _

/-- Some of the others do not push any of the oldest out. -/
theorem oldest_append_excess (n : Nat) (hd : (es.map seq).Nodup) (p : Entry α → Bool) :
    oldest n (oldest n es ++ (excess n es).filter p) = oldest n es := by
  have hsorted := (sorted_inOrder hd).sublist (oldest_append_excess_sublist n es p)
  rw [oldest, inOrder_eq_self hsorted]
  rcases Nat.le_total n (inOrder es).length with hle | hle
  · have hlen : (oldest n es).length = n := by rw [oldest, List.length_take, Nat.min_eq_left hle]
    rw [List.take_append_of_le_length (Nat.le_of_eq hlen.symm),
      List.take_of_length_le (Nat.le_of_eq hlen)]
  · rw [excess, List.drop_eq_nil_of_le hle, List.filter_nil, List.append_nil, oldest,
      List.take_take, Nat.min_self]

/-- Entries that were left out once are left out again, whatever else comes in
beside them. -/
theorem oldest_append_readmitted (n : Nat) (hd : ((es ++ fs).map seq).Nodup) (p : Entry α → Bool) :
    oldest n (oldest n es ++ (fs ++ (excess n es).filter p)) = oldest n (es ++ fs) := by
  let back := (excess n es).filter p
  have hperm : (oldest n es ++ back ++ fs).Perm (oldest n es ++ (fs ++ back)) := by
    rw [List.append_assoc]
    exact List.perm_append_comm.append_left _
  have hdb := distinct_append_of_sublist hd (oldest_append_excess_sublist n es p)
  have hdes : (es.map seq).Nodup := hd.sublist ((List.sublist_append_left es fs).map seq)
  calc oldest n (oldest n es ++ (fs ++ back))
    _ = oldest n (oldest n es ++ back ++ fs) := (oldest_perm n hperm hdb).symm
    _ = oldest n (oldest n (oldest n es ++ back) ++ fs) := (oldest_oldest_append n hdb).symm
    _ = oldest n (oldest n es ++ fs) := by rw [oldest_append_excess n hdes p]
    _ = oldest n (es ++ fs) := oldest_oldest_append n hd

end Entry

namespace Buffer

variable {α : Type} {b : Buffer α} {x y : Batch α}

/-- The entries that compete for room when a batch comes back: those that are
held, and those of the batch that were pushed out. -/
def rivals (b : Buffer α) (out : Batch α) : List (Entry α) :=
  b.entries ++ b.displaced.filter out.covers

theorem rivals_sublist (b : Buffer α) (out : Batch α) : (b.rivals out).Sublist b.contents :=
  List.filter_sublist.append_left _

theorem Valid.distinct_rivals (h : b.Valid) (out : Batch α) :
    ((b.rivals out).map Entry.seq).Nodup :=
  h.distinct.sublist ((b.rivals_sublist out).map Entry.seq)

theorem Valid.foldl_place_eq (h : b.Valid) (out : Batch α) :
    (b.displaced.filter out.covers).foldl (fun es e => place e es) b.entries =
      Entry.inOrder (b.rivals out) :=
  (Entry.inOrder_eq (perm_foldl_place _ _).symm
    (sorted_foldl_place h.sorted (h.distinct_rivals out))).symm

/-- The oldest entries stay, as many as there is room for. -/
theorem Valid.entries_reject (h : b.Valid) (out : Batch α) :
    (b.reject out).entries = Entry.oldest b.capacity (b.rivals out) := by
  rw [Entry.oldest, ← h.foldl_place_eq out]
  rfl

theorem Valid.displaced_reject (h : b.Valid) (out : Batch α) :
    (b.reject out).displaced = (b.displaced.filter fun e => !out.covers e) ++
      (Entry.excess b.capacity (b.rivals out)).filter (b.resolve out).isOut := by
  rw [Entry.excess, ← h.foldl_place_eq out]
  rfl

theorem Valid.dropped_reject (h : b.Valid) (out : Batch α) :
    (b.reject out).dropped = b.dropped +
      (Entry.excess b.capacity (b.rivals out)).countP fun e => !(b.resolve out).isOut e := by
  rw [Entry.excess, ← h.foldl_place_eq out]
  rfl

theorem inFlight_reject (b : Buffer α) (out : Batch α) :
    (b.reject out).inFlight = b.inFlight.filter fun s => !out.seqs.contains s := rfl

theorem isOut_reject (b : Buffer α) (out : Batch α) (e : Entry α) :
    (b.reject out).isOut e = (b.isOut e && !out.covers e) :=
  b.isOut_resolve out e

/-- What is displaced when a batch has come back: all that is out and not held. -/
theorem Valid.mem_displaced_reject_iff (h : b.Valid) {out : Batch α} {e : Entry α} :
    e ∈ (b.reject out).displaced ↔
      e ∈ b.contents ∧ (b.reject out).isOut e = true ∧ e ∉ (b.reject out).entries := by
  have hv := h.reject out
  have ha := b.accounts_reject out
  constructor
  · intro he
    refine ⟨ha.subset (displaced_subset_contents _ he), hv.isOut_displaced e he, fun hc => ?_⟩
    have hd := hv.distinct
    rw [contents, List.map_append, List.nodup_append] at hd
    exact hd.2.2 _ (List.mem_map_of_mem hc) _ (List.mem_map_of_mem he) rfl
  · rintro ⟨he, hout, hnot⟩
    exact (List.mem_append.1 (ha.mem_contents he hout)).resolve_left hnot

/-- Entries that go are counted. -/
theorem length_contents_reject (b : Buffer α) (out : Batch α) :
    (b.reject out).contents.length + (b.reject out).dropped = b.contents.length + b.dropped := by
  obtain ⟨gone, hp, -, hn⟩ := b.accounts_reject out
  have hlen := hp.length_eq
  rw [List.length_append] at hlen
  omega

/-! ### Two batches that come back -/

/-- Two batches that are out and share no entry. -/
structure Apart (b : Buffer α) (x y : Batch α) : Prop where
  disjoint : ∀ e, x.covers e = true → y.covers e = true → False
  isOut_left : ∀ e, x.covers e = true → b.isOut e = true
  isOut_right : ∀ e, y.covers e = true → b.isOut e = true

theorem Apart.symm (h : b.Apart x y) : b.Apart y x :=
  ⟨fun e hy hx => h.disjoint e hx hy, h.isOut_right, h.isOut_left⟩

theorem Apart.not_covers (h : b.Apart x y) {e : Entry α} (hy : y.covers e = true) :
    x.covers e = false :=
  Bool.eq_false_iff.2 fun hx => h.disjoint e hx hy

theorem Apart.filter_displaced (ha : b.Apart x y) :
    (b.displaced.filter fun e => !x.covers e).filter y.covers = b.displaced.filter y.covers := by
  rw [List.filter_filter]
  refine List.filter_congr fun e _ => ?_
  cases hy : y.covers e with
  | true => rw [ha.not_covers hy, Bool.not_false, Bool.true_and]
  | false => rw [Bool.false_and]

theorem Apart.filter_isOut_resolve (ha : b.Apart x y) (es : List (Entry α)) :
    (es.filter (b.resolve x).isOut).filter y.covers = es.filter y.covers := by
  rw [List.filter_filter]
  refine List.filter_congr fun e _ => ?_
  cases hy : y.covers e with
  | true =>
      rw [isOut_resolve, ha.isOut_right e hy, ha.not_covers hy, Bool.not_false, Bool.true_and,
        Bool.true_and]
  | false => rw [Bool.false_and]

theorem Valid.distinct_rivals_append (h : b.Valid) (ha : b.Apart x y) :
    ((b.rivals x ++ b.displaced.filter y.covers).map Entry.seq).Nodup := by
  have hperm := (List.filter_append_perm x.covers b.displaced).append_left b.entries
  rw [← List.append_assoc] at hperm
  refine ((hperm.map Entry.seq).nodup_iff.2 h.distinct).sublist (List.Sublist.map _ ?_)
  rw [← ha.filter_displaced]
  exact List.filter_sublist.append_left _

/-- Entries of the second batch that the first one pushes out come back with the
second one. -/
theorem Valid.entries_reject_reject (h : b.Valid) (ha : b.Apart x y) :
    ((b.reject x).reject y).entries =
      Entry.oldest b.capacity (b.rivals x ++ b.displaced.filter y.covers) := by
  rw [(h.reject x).entries_reject y, capacity_reject, rivals, h.entries_reject x,
    h.displaced_reject x, List.filter_append, ha.filter_displaced, ha.filter_isOut_resolve]
  exact Entry.oldest_append_readmitted b.capacity (h.distinct_rivals_append ha) y.covers

theorem Valid.entries_reject_comm (h : b.Valid) (ha : b.Apart x y) :
    ((b.reject x).reject y).entries = ((b.reject y).reject x).entries := by
  have hperm : (b.rivals x ++ b.displaced.filter y.covers).Perm
      (b.rivals y ++ b.displaced.filter x.covers) := by
    rw [rivals, rivals, List.append_assoc, List.append_assoc]
    exact List.perm_append_comm.append_left _
  rw [h.entries_reject_reject ha, h.entries_reject_reject ha.symm]
  exact Entry.oldest_perm b.capacity hperm (h.distinct_rivals_append ha)

theorem isOut_reject_reject (b : Buffer α) (x y : Batch α) :
    ((b.reject x).reject y).isOut = ((b.reject y).reject x).isOut := by
  funext e
  rw [isOut_reject, isOut_reject, isOut_reject, isOut_reject, Bool.and_right_comm]

theorem Valid.mem_displaced_reject_reject_iff (h : b.Valid) {e : Entry α} :
    e ∈ ((b.reject x).reject y).displaced ↔ e ∈ b.contents ∧
      ((b.reject x).reject y).isOut e = true ∧ e ∉ ((b.reject x).reject y).entries := by
  have ha := b.accounts_reject x
  rw [(h.reject x).mem_displaced_reject_iff]
  refine and_congr_left fun hrest => ⟨fun he => ha.subset he, fun he => ha.mem_contents he ?_⟩
  have hout := hrest.1
  rw [isOut_reject, Bool.and_eq_true] at hout
  exact hout.1

theorem Valid.displaced_reject_comm (h : b.Valid) (ha : b.Apart x y) :
    ((b.reject x).reject y).displaced.Perm ((b.reject y).reject x).displaced := by
  have hnodup {c : Buffer α} (hc : c.Valid) : c.displaced.Nodup :=
    hc.distinct.of_map.sublist (List.sublist_append_right _ _)
  refine (List.perm_ext_iff_of_nodup (hnodup ((h.reject x).reject y))
    (hnodup ((h.reject y).reject x))).2 fun e => ?_
  rw [h.mem_displaced_reject_reject_iff, h.mem_displaced_reject_reject_iff,
    h.entries_reject_comm ha, isOut_reject_reject]

theorem Valid.dropped_reject_comm (h : b.Valid) (ha : b.Apart x y) :
    ((b.reject x).reject y).dropped = ((b.reject y).reject x).dropped := by
  have hxy := (b.reject x).length_contents_reject y
  have hyx := (b.reject y).length_contents_reject x
  rw [b.length_contents_reject, contents, List.length_append] at hxy hyx
  rw [h.entries_reject_comm ha, (h.displaced_reject_comm ha).length_eq] at hxy
  omega

end Buffer

namespace BufferHistory

variable {α : Type} {h : BufferHistory α}

theorem mem_seqs_flatten_iff {out : List (Batch α)} {e : Entry α} :
    e.seq ∈ out.flatten.map Entry.seq ↔ ∃ batch ∈ out, batch.covers e = true := by
  constructor
  · intro hs
    obtain ⟨f, hf, hfe⟩ := List.mem_map.1 hs
    obtain ⟨batch, hb, hfb⟩ := List.mem_flatten.1 hf
    exact ⟨batch, hb, Batch.covers_iff.2 (hfe ▸ List.mem_map_of_mem hfb)⟩
  · rintro ⟨batch, hb, he⟩
    obtain ⟨f, hf, hfe⟩ := List.mem_map.1 (Batch.covers_iff.1 he)
    exact hfe ▸ List.mem_map_of_mem (List.mem_flatten.2 ⟨batch, hb, hf⟩)

theorem Sound.isOut_of_covers (hs : h.Sound) {batch : Batch α} (hb : batch ∈ h.out) {e : Entry α}
    (he : batch.covers e = true) : h.buffer.isOut e = true :=
  Buffer.isOut_iff.2 (hs.inFlight.mem_iff.2 (mem_seqs_flatten_iff.2 ⟨batch, hb, he⟩))

/-- After a batch was taken back, what is out is what the other batches have. -/
theorem Sound.isOut_resolve_eq (hs : h.Sound) {i : Nat} {batch : Batch α}
    (hb : h.out[i]? = some batch) (e : Entry α) :
    (h.buffer.resolve batch).isOut e = (h.out.eraseIdx i).any fun other => other.covers e := by
  rw [Bool.eq_iff_iff, Buffer.isOut_iff, (hs.inFlight_resolve hb).mem_iff, mem_seqs_flatten_iff,
    List.any_eq_true]

theorem Sound.apart (hs : h.Sound) {i j : Nat} {x y : Batch α} (hij : i ≠ j)
    (hx : h.out[i]? = some x) (hy : h.out[j]? = some y) : h.buffer.Apart x y := by
  refine ⟨fun e hxe hye => ?_, fun e => hs.isOut_of_covers (List.mem_of_getElem? hx),
    fun e => hs.isOut_of_covers (List.mem_of_getElem? hy)⟩
  have hrest : y ∈ h.out.eraseIdx i := List.mem_eraseIdx_iff_getElem?.2 ⟨j, hij.symm, hy⟩
  exact hs.disjoint_out hx _ (mem_seqs_flatten_iff.2 ⟨y, hrest, hye⟩) (Batch.covers_iff.1 hxe)

/-- After any actions, a batch that is out comes back. The entries held are then
the oldest, as many as fit, of those that were held and those of the batch that
had been displaced. What this pushes out is displaced if it is in another batch,
and else it is dropped and counted. Other displaced entries stay as they are. -/
theorem reject_keeps_oldest (capacity : Nat) (actions : List (BufferAction α)) (i : Nat)
    (batch : Batch α) :
    let h := (start capacity : BufferHistory α).run actions
    let others := h.out.eraseIdx i
    let rivals := h.buffer.entries ++ h.buffer.displaced.filter batch.covers
    let pushed := (Entry.inOrder rivals).drop h.buffer.capacity
    let after := h.buffer.reject batch
    h.out[i]? = some batch →
      after.entries = (Entry.inOrder rivals).take h.buffer.capacity ∧
        (∃ moved, after.displaced = (h.buffer.displaced.filter fun e => !batch.covers e) ++ moved ∧
          moved.Perm (pushed.filter fun e => others.any fun other => other.covers e)) ∧
        after.dropped =
          h.buffer.dropped + pushed.countP fun e => !others.any fun other => other.covers e := by
  intro h others rivals pushed after hb
  have hs : h.Sound := (sound_start capacity).run actions
  have hout : (h.buffer.resolve batch).isOut = fun e => others.any fun other => other.covers e :=
    funext fun e => hs.isOut_resolve_eq hb e
  refine ⟨hs.valid.entries_reject batch, ⟨_, hs.valid.displaced_reject batch, ?_⟩, ?_⟩
  · rw [hout]
    exact List.Perm.refl _
  · have hdropped := hs.valid.dropped_reject batch
    rwa [hout] at hdropped

/-- Actions that leave two batches out, one of which was pushed out meanwhile. -/
def crowded : List (BufferAction Nat) :=
  [.addAll [1, 2, 3], .batch 2, .addAll [4, 5], .batch 2]

theorem reject_keeps_oldest_crowded :
    let h := (start 3).run crowded
    let after := h.buffer.reject [⟨0, 1⟩, ⟨1, 2⟩]
    h.out[0]? = some [⟨0, 1⟩, ⟨1, 2⟩] ∧ after.entries = [⟨0, 1⟩, ⟨1, 2⟩, ⟨2, 3⟩] ∧
      after.displaced = [⟨3, 4⟩] ∧ after.dropped = 1 := by
  intro h after
  have hout : h.out[0]? = some [⟨0, 1⟩, ⟨1, 2⟩] := by decide
  obtain ⟨hentries, ⟨moved, hdisplaced, hmoved⟩, hdropped⟩ :=
    reject_keeps_oldest 3 crowded 0 [⟨0, 1⟩, ⟨1, 2⟩] hout
  have horder : Entry.inOrder (h.buffer.entries ++
      h.buffer.displaced.filter (Batch.covers [⟨0, 1⟩, ⟨1, 2⟩])) =
        [⟨0, 1⟩, ⟨1, 2⟩, ⟨2, 3⟩, ⟨3, 4⟩, ⟨4, 5⟩] :=
    Entry.inOrder_eq (by decide) (by decide)
  rw [horder] at hentries hmoved hdropped
  have hone : moved = [⟨3, 4⟩] := List.perm_singleton.1 hmoved
  refine ⟨hout, hentries, ?_, hdropped⟩
  rw [hdisplaced, hone]
  decide

/-- After any actions, two batches that are out come back in either order. -/
theorem reject_comm (capacity : Nat) (actions : List (BufferAction α)) (i j : Nat)
    (x y : Batch α) :
    let h := (start capacity : BufferHistory α).run actions
    let first := (h.buffer.reject x).reject y
    let second := (h.buffer.reject y).reject x
    i ≠ j → h.out[i]? = some x → h.out[j]? = some y →
      first.entries = second.entries ∧ first.dropped = second.dropped ∧
        first.inFlight = second.inFlight ∧ first.displaced.Perm second.displaced := by
  intro h first second hij hx hy
  have hs : h.Sound := (sound_start capacity).run actions
  have ha := hs.apart hij hx hy
  refine ⟨hs.valid.entries_reject_comm ha, hs.valid.dropped_reject_comm ha, ?_,
    hs.valid.displaced_reject_comm ha⟩
  simp only [first, second, Buffer.inFlight_reject, List.filter_filter]
  exact List.filter_congr fun s _ => Bool.and_comm _ _

theorem reject_comm_crowded :
    let h := (start 3).run crowded
    let first := (h.buffer.reject [⟨0, 1⟩, ⟨1, 2⟩]).reject [⟨2, 3⟩, ⟨3, 4⟩]
    let second := (h.buffer.reject [⟨2, 3⟩, ⟨3, 4⟩]).reject [⟨0, 1⟩, ⟨1, 2⟩]
    h.out[0]? = some [⟨0, 1⟩, ⟨1, 2⟩] ∧ h.out[1]? = some [⟨2, 3⟩, ⟨3, 4⟩] ∧
      first.entries = second.entries ∧ first.dropped = 2 ∧ second.dropped = 2 := by
  intro h first second
  have hx : h.out[0]? = some [⟨0, 1⟩, ⟨1, 2⟩] := by decide
  have hy : h.out[1]? = some [⟨2, 3⟩, ⟨3, 4⟩] := by decide
  obtain ⟨hentries, hdropped, -, -⟩ := reject_comm 3 crowded 0 1 _ _ (by decide) hx hy
  have htwo : first.dropped = 2 := by decide
  exact ⟨hx, hy, hentries, htwo, hdropped.symm.trans htwo⟩

end BufferHistory

end MetricAgent
