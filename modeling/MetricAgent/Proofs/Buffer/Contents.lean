import MetricAgent.Buffer
import MetricAgent.Proofs.Lists

/-!
# What a buffer keeps

The contents of a buffer are the entries it holds and those it has displaced.
`Buffer.Accounts es n` says how a buffer came from a stock `es` of entries: all
of them are its contents, apart from some that were in no batch, and each of
these was added to the count `n` of drops. Every operation that can push
entries out has one lemma of this form, and `Accounts.trans` chains them. So
whoever counts entries need not know which end of the buffer they fell off.
-/

namespace MetricAgent

namespace Entry

variable {α : Type}

/-- Items with their numbers, which begin with `n`. -/
def numbered : Nat → List α → List (Entry α)
  | _, [] => []
  | n, x :: xs => ⟨n, x⟩ :: numbered (n + 1) xs

@[simp] theorem numbered_nil (n : Nat) : numbered n ([] : List α) = [] := rfl

@[simp] theorem numbered_cons (n : Nat) (x : α) (xs : List α) :
    numbered n (x :: xs) = ⟨n, x⟩ :: numbered (n + 1) xs := rfl

theorem numbered_append (n : Nat) (xs ys : List α) :
    numbered n (xs ++ ys) = numbered n xs ++ numbered (n + xs.length) ys := by
  induction xs generalizing n with
  | nil => simp
  | cons x xs ih =>
      simp only [List.cons_append, numbered_cons, ih, List.length_cons]
      congr 3
      omega

@[simp] theorem map_item_numbered (n : Nat) (xs : List α) : (numbered n xs).map item = xs := by
  induction xs generalizing n with
  | nil => rfl
  | cons x xs ih => simp [ih]

theorem length_numbered (n : Nat) (xs : List α) : (numbered n xs).length = xs.length := by
  rw [← List.length_map item, map_item_numbered]

theorem seq_numbered {n : Nat} {xs : List α} {e : Entry α} (h : e ∈ numbered n xs) :
    n ≤ e.seq ∧ e.seq < n + xs.length := by
  induction xs generalizing n with
  | nil => simp at h
  | cons x xs ih =>
      rw [numbered_cons, List.mem_cons] at h
      rw [List.length_cons]
      rcases h with rfl | h
      · constructor <;> simp only <;> omega
      · have := ih h
        omega

theorem sorted_numbered (n : Nat) (xs : List α) :
    (numbered n xs).Pairwise fun e f => e.seq < f.seq := by
  induction xs generalizing n with
  | nil => exact List.Pairwise.nil
  | cons x xs ih =>
      rw [numbered_cons, List.pairwise_cons]
      refine ⟨fun e he => ?_, ih (n + 1)⟩
      have := (seq_numbered he).1
      simp only
      omega

/-- Entries in the order of their numbers have different numbers. -/
theorem nodup_of_sorted {es : List (Entry α)} (h : es.Pairwise fun e f => e.seq < f.seq) :
    (es.map seq).Nodup :=
  List.pairwise_map.2 (h.imp Nat.ne_of_lt)

end Entry

namespace Batch

variable {α : Type}

theorem covers_iff {b : Batch α} {e : Entry α} : b.covers e = true ↔ e.seq ∈ b.map Entry.seq := by
  simp [covers, seqs]

theorem covers_of_mem {b : Batch α} {e : Entry α} (h : e ∈ b) : b.covers e = true :=
  covers_iff.2 (List.mem_map_of_mem h)

/-- Removing the entries that `ks` covers from entries with different numbers
leaves what was there besides `ks`. -/
theorem perm_filter_not_covers {es : List (Entry α)} {ks gone : Batch α}
    (hd : (es.map Entry.seq).Nodup) (h : es.Perm (ks ++ gone)) :
    (es.filter fun e => !ks.covers e).Perm gone :=
  perm_filter_key Entry.seq hd h

@[simp] theorem filter_seqs_self (b : Batch α) :
    (b.seqs.filter fun s => !b.seqs.contains s) = [] := by
  rw [List.filter_eq_nil_iff]
  intro s hs
  simpa using hs

/-- Among entries with different numbers, a batch covers its own. -/
theorem perm_filter_covers {es : List (Entry α)} {ks : Batch α} (hd : (es.map Entry.seq).Nodup)
    (ho : (ks.map Entry.seq).Nodup) (hs : ks ⊆ es) : (es.filter ks.covers).Perm ks := by
  refine (List.perm_ext_iff_of_nodup (hd.of_map.filter _) ho.of_map).2 fun e => ?_
  rw [List.mem_filter, covers_iff]
  constructor
  · rintro ⟨he, hc⟩
    obtain ⟨f, hf, hfe⟩ := List.mem_map.1 hc
    rwa [← List.inj_on_of_nodup_map hd (hs hf) he hfe]
  · exact fun he => ⟨hs he, List.mem_map_of_mem he⟩

end Batch

namespace Buffer

variable {α : Type}

/-- The entries that a buffer keeps, in their places or displaced. -/
def contents (b : Buffer α) : List (Entry α) := b.entries ++ b.displaced

/-- The entries `es` are the contents of the buffer, apart from some that are in
no batch. It has counted those, beyond `n` drops. -/
def Accounts (b : Buffer α) (es : List (Entry α)) (n : Nat) : Prop :=
  ∃ gone, es.Perm (b.contents ++ gone) ∧ (∀ e ∈ gone, b.isOut e = false) ∧
    b.dropped = n + gone.length

theorem accounts_contents (b : Buffer α) : b.Accounts b.contents b.dropped :=
  ⟨[], by simp, by simp, rfl⟩

theorem Accounts.of_perm {b : Buffer α} {es fs : List (Entry α)} {n : Nat} (h : b.Accounts fs n)
    (hp : es.Perm fs) : b.Accounts es n := by
  obtain ⟨gone, hg, hout, hn⟩ := h
  exact ⟨gone, hp.trans hg, hout, hn⟩

/-- Entries that were lost on the way to `b` are still lost after it. -/
theorem Accounts.trans {b c : Buffer α} {es new : List (Entry α)} {n : Nat} (hb : b.Accounts es n)
    (hc : c.Accounts (b.contents ++ new) b.dropped) (hi : c.inFlight = b.inFlight) :
    c.Accounts (es ++ new) n := by
  obtain ⟨gone, hp, hout, hn⟩ := hb
  obtain ⟨more, hp', hout', hn'⟩ := hc
  refine ⟨more ++ gone, ?_, ?_, ?_⟩
  · classical
    rw [List.perm_iff_count] at hp hp' ⊢
    intro e
    have h := hp e
    have h' := hp' e
    simp only [List.count_append] at h h' ⊢
    omega
  · intro e he
    rcases List.mem_append.1 he with he | he
    · exact hout' e he
    · simpa [isOut, hi] using hout e he
  · rw [List.length_append]
    omega

/-- What is accounted for and is in a batch has been kept. -/
theorem Accounts.mem_contents {b : Buffer α} {es : List (Entry α)} {n : Nat} (h : b.Accounts es n)
    {e : Entry α} (he : e ∈ es) (hout : b.isOut e = true) : e ∈ b.contents := by
  obtain ⟨gone, hp, hgone, -⟩ := h
  rcases List.mem_append.1 (hp.mem_iff.1 he) with hc | hg
  · exact hc
  · exact absurd hout (by simp [hgone e hg])

theorem Accounts.subset {b : Buffer α} {es : List (Entry α)} {n : Nat} (h : b.Accounts es n) :
    b.contents ⊆ es := by
  obtain ⟨gone, hp, -, -⟩ := h
  exact fun e he => hp.mem_iff.2 (List.mem_append_left _ he)

theorem Accounts.nodup {b : Buffer α} {es : List (Entry α)} {n : Nat} (h : b.Accounts es n)
    (hd : (es.map Entry.seq).Nodup) : (b.contents.map Entry.seq).Nodup := by
  obtain ⟨gone, hp, -, -⟩ := h
  have hd' := (hp.map Entry.seq).nodup_iff.1 hd
  rw [List.map_append] at hd'
  exact (List.nodup_append.1 hd').1

theorem Accounts.le_dropped {b : Buffer α} {es : List (Entry α)} {n : Nat} (h : b.Accounts es n) :
    n ≤ b.dropped := by
  obtain ⟨gone, -, -, hn⟩ := h
  omega

/-! ### What one operation does to the contents -/

@[simp] theorem isOut_discard (b : Buffer α) (es : List (Entry α)) (e : Entry α) :
    (b.discard es).isOut e = b.isOut e := rfl

@[simp] theorem displaced_discard (b : Buffer α) (es : List (Entry α)) :
    (b.discard es).displaced = b.displaced ++ es.filter b.isOut := rfl

theorem accounts_discard (b : Buffer α) (es : List (Entry α)) :
    (b.discard es).Accounts (b.contents ++ es) b.dropped := by
  refine ⟨es.filter fun e => !b.isOut e, ?_, ?_, ?_⟩
  · have hp := (List.filter_append_perm b.isOut es).symm
    simpa [contents, List.append_assoc] using hp.append_left (b.entries ++ b.displaced)
  · intro e he
    simpa using (List.mem_filter.1 he).2
  · simp [discard, List.countP_eq_length_filter]

/-- Some of the entries held are pushed out, wherever they stand. -/
theorem accounts_discard_of_perm {b : Buffer α} {kept out : List (Entry α)}
    (h : b.entries.Perm (kept ++ out)) :
    ({ b with entries := kept }.discard out).Accounts b.contents b.dropped := by
  refine (accounts_discard { b with entries := kept } out).of_perm ?_
  calc b.contents
    _ |>.Perm (kept ++ out ++ b.displaced) := h.append_right _
    _ = kept ++ (out ++ b.displaced) := List.append_assoc _ _ _
    _ |>.Perm (kept ++ (b.displaced ++ out)) := List.perm_append_comm.append_left _
    _ = kept ++ b.displaced ++ out := (List.append_assoc _ _ _).symm

@[simp] theorem inFlight_makeRoom (b : Buffer α) : b.makeRoom.inFlight = b.inFlight := by
  unfold makeRoom; split <;> rfl

@[simp] theorem capacity_makeRoom (b : Buffer α) : b.makeRoom.capacity = b.capacity := by
  unfold makeRoom; split <;> rfl

@[simp] theorem nextSeq_makeRoom (b : Buffer α) : b.makeRoom.nextSeq = b.nextSeq := by
  unfold makeRoom; split <;> rfl

theorem accounts_makeRoom (b : Buffer α) : b.makeRoom.Accounts b.contents b.dropped := by
  unfold makeRoom
  split
  · exact b.accounts_contents
  · have hp : b.entries.Perm (b.entries.drop 1 ++ b.entries.take 1) := by
      conv_lhs => rw [← List.take_append_drop 1 b.entries]
      exact List.perm_append_comm
    exact accounts_discard_of_perm hp

@[simp] theorem inFlight_add (b : Buffer α) (x : α) : (b.add x).inFlight = b.inFlight :=
  b.inFlight_makeRoom

@[simp] theorem capacity_add (b : Buffer α) (x : α) : (b.add x).capacity = b.capacity :=
  b.capacity_makeRoom

@[simp] theorem nextSeq_add (b : Buffer α) (x : α) : (b.add x).nextSeq = b.nextSeq + 1 := by
  simp [add]

theorem accounts_add (b : Buffer α) (x : α) :
    (b.add x).Accounts (b.contents ++ [⟨b.nextSeq, x⟩]) b.dropped := by
  refine (accounts_makeRoom b).trans ⟨[], ?_, by simp, by simp [add]⟩ (by simp)
  simp only [contents, add, nextSeq_makeRoom, List.append_nil, List.append_assoc]
  exact List.perm_append_comm.append_left _

theorem accounts_addAll (b : Buffer α) (xs : List α) :
    (b.addAll xs).inFlight = b.inFlight ∧ (b.addAll xs).nextSeq = b.nextSeq + xs.length ∧
      (b.addAll xs).Accounts (b.contents ++ Entry.numbered b.nextSeq xs) b.dropped := by
  induction xs generalizing b with
  | nil => simpa using b.accounts_contents
  | cons x xs ih =>
      obtain ⟨hi, hn, ha⟩ := ih (b.add x)
      rw [inFlight_add] at hi
      rw [nextSeq_add] at hn ha
      refine ⟨hi, by simp [hn]; omega, ?_⟩
      have h := (accounts_add b x).trans ha (hi.trans (b.inFlight_add x).symm)
      simpa using h

@[simp] theorem capacity_addAll (b : Buffer α) (xs : List α) :
    (b.addAll xs).capacity = b.capacity := by
  induction xs generalizing b with
  | nil => rfl
  | cons x xs ih => exact (ih (b.add x)).trans (b.capacity_add x)

@[simp] theorem contents_batch (b : Buffer α) (n : Nat) : (b.batch n).1.contents = b.contents := rfl

@[simp] theorem capacity_batch (b : Buffer α) (n : Nat) : (b.batch n).1.capacity = b.capacity := rfl

@[simp] theorem dropped_batch (b : Buffer α) (n : Nat) : (b.batch n).1.dropped = b.dropped := rfl

/-- Asking for a batch where there is none changes nothing. -/
theorem batch_of_eq_nil {b : Buffer α} {n : Nat} (h : (b.batch n).2 = []) : (b.batch n).1 = b := by
  simp only [batch] at h
  simp [batch, h, Batch.seqs]

theorem accounts_cut (b : Buffer α) : b.cut.Accounts b.contents b.dropped := by
  refine accounts_discard_of_perm ?_
  rw [List.take_append_drop]

theorem perm_place (e : Entry α) (es : List (Entry α)) : (place e es).Perm (e :: es) := by
  induction es with
  | nil => exact List.Perm.refl _
  | cons f rest ih =>
      unfold place
      split
      · exact (ih.cons f).trans (List.Perm.swap e f rest)
      · exact List.Perm.refl _

theorem perm_foldl_place (rs es : List (Entry α)) :
    (rs.foldl (fun es e => place e es) es).Perm (es ++ rs) := by
  induction rs generalizing es with
  | nil => simp
  | cons r rs ih =>
      have h : ((r :: es) ++ rs).Perm (es ++ r :: rs) := List.perm_middle.symm
      exact (ih _).trans (((perm_place r es).append_right rs).trans h)

@[simp] theorem capacity_reject (b : Buffer α) (out : Batch α) :
    (b.reject out).capacity = b.capacity := rfl

theorem accounts_reject (b : Buffer α) (out : Batch α) :
    (b.reject out).Accounts b.contents b.dropped := by
  refine (accounts_cut _).of_perm ?_
  have hp := (List.filter_append_perm out.covers b.displaced).symm
  refine (hp.append_left b.entries).trans ?_
  rw [← List.append_assoc]
  exact (perm_foldl_place _ _).symm.append_right _

theorem contents_accept (b : Buffer α) (out : Batch α) :
    (b.accept out).contents = b.contents.filter fun e => !out.covers e := by
  simp [contents, accept, resolve]

@[simp] theorem capacity_accept (b : Buffer α) (out : Batch α) :
    (b.accept out).capacity = b.capacity := rfl

@[simp] theorem dropped_accept (b : Buffer α) (out : Batch α) :
    (b.accept out).dropped = b.dropped := rfl

/-- Accepting a batch takes its entries out of the contents, and nothing else. -/
theorem perm_contents_accept {b : Buffer α} {out : Batch α} (hd : (b.contents.map Entry.seq).Nodup)
    (ho : (out.map Entry.seq).Nodup) (hs : out ⊆ b.contents) :
    b.contents.Perm ((b.accept out).contents ++ out) := by
  rw [contents_accept]
  exact (List.filter_append_perm out.covers b.contents).symm.trans
    (List.perm_append_comm.trans ((Batch.perm_filter_covers hd ho hs).append_left _))

end Buffer

end MetricAgent
