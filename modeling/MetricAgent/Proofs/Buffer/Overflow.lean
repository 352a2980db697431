import Mathlib.Data.List.DropRight
import MetricAgent.Proofs.Buffer.Turnover

/-!
# What a full buffer keeps

A buffer makes room one entry at a time, and by then it may have been through
any batches that came back or did not. While none is out, what it keeps of the
entries held and the items that come in has a closed form: the newest ones, as
many as it can hold (`Buffer.Valid.entries_addAll`). The others fall off the
front, and as none of them is in a batch, all of them are counted
(`Buffer.Valid.losses_addAll`).
-/

namespace MetricAgent

/-- The last of all can be found among the last of some and those behind them. -/
theorem rtake_rtake_append {β : Type} (n : Nat) (xs ys : List β) :
    (xs.rtake n ++ ys).rtake n = (xs ++ ys).rtake n := by
  have hle : n - ys.length ≤ n := Nat.sub_le n ys.length
  simp only [List.rtake_eq_reverse_take_reverse, List.reverse_append, List.reverse_reverse,
    List.take_append, List.take_take, List.length_reverse, Nat.min_eq_left hle]

namespace Buffer

variable {α : Type} {b : Buffer α}

/-! ### What is counted -/

theorem dropped_add (b : Buffer α) (x : α) : (b.add x).dropped = b.dropped + b.lossToAdd := by
  unfold add makeRoom lossToAdd
  split <;> rfl

theorem addAllCounted_cons (b : Buffer α) (x : α) (xs : List α) :
    b.addAllCounted (x :: xs) =
      (((b.add x).addAllCounted xs).1, b.lossToAdd + ((b.add x).addAllCounted xs).2) := rfl

@[simp] theorem fst_addAllCounted (b : Buffer α) (xs : List α) :
    (b.addAllCounted xs).1 = b.addAll xs := by
  induction xs generalizing b with
  | nil => rfl
  | cons x xs ih => exact ih (b.add x)

/-- Whatever is out, what is counted on the way is what the buffer counts. -/
theorem dropped_addAll (b : Buffer α) (xs : List α) :
    (b.addAll xs).dropped = b.dropped + (b.addAllCounted xs).2 := by
  induction xs generalizing b with
  | nil => rfl
  | cons x xs ih => rw [addAll_cons, ih, dropped_add, addAllCounted_cons, Nat.add_assoc]

/-! ### What is kept while no batch is out -/

theorem Valid.lossToAdd_of_idle (h : b.Valid) (hidle : b.inFlight = []) :
    b.lossToAdd = b.size + 1 - b.capacity := by
  have hpos := h.capacity_pos
  have hle := h.size_le
  unfold lossToAdd size at *
  split
  · omega
  · have hall : (b.entries.take 1).countP (fun e => !b.isOut e) = (b.entries.take 1).length := by
      rw [List.countP_eq_length]
      intro e _
      simp [isOut, hidle]
    rw [hall, List.length_take]
    omega

theorem Valid.entries_add (h : b.Valid) (x : α) :
    (b.add x).entries = (b.entries ++ [(⟨b.nextSeq, x⟩ : Entry α)]).rtake b.capacity := by
  have hpos := h.capacity_pos
  have hle := h.size_le
  rw [size] at hle
  have hroom : b.makeRoom.entries = b.entries.drop (b.entries.length + 1 - b.capacity) := by
    unfold Buffer.makeRoom
    split
    · rw [Nat.sub_eq_zero_of_le (by omega), List.drop_zero]
    · have hone : b.entries.length + 1 - b.capacity = 1 := by omega
      rw [entries_discard, hone]
  have hcut : b.entries.length + 1 - b.capacity ≤ b.entries.length := by omega
  simp only [Buffer.add, hroom, nextSeq_makeRoom, List.rtake, List.length_append,
    List.length_singleton]
  exact (List.drop_append_of_le_length hcut).symm

theorem Valid.entries_addAll (h : b.Valid) (xs : List α) :
    (b.addAll xs).entries = (b.entries ++ Entry.numbered b.nextSeq xs).rtake b.capacity := by
  induction xs generalizing b with
  | nil =>
      have hle : b.entries.length ≤ b.capacity := h.size_le
      simp [List.rtake, Nat.sub_eq_zero_of_le hle]
  | cons x xs ih =>
      rw [addAll_cons, ih (h.add x), h.entries_add, nextSeq_add, capacity_add, rtake_rtake_append,
        List.append_assoc]
      rfl

theorem Valid.losses_addAll (h : b.Valid) (hidle : b.inFlight = []) (xs : List α) :
    (b.addAllCounted xs).2 = b.size + xs.length - b.capacity := by
  induction xs generalizing b with
  | nil => exact (Nat.sub_eq_zero_of_le h.size_le).symm
  | cons x xs ih =>
      have hsize : (b.add x).size = b.size + 1 - (b.size + 1 - b.capacity) := by
        rw [size, h.entries_add, List.rtake, List.length_drop, List.length_append]
        rfl
      rw [addAllCounted_cons, ih (h.add x) ((b.inFlight_add x).trans hidle),
        h.lossToAdd_of_idle hidle, hsize, capacity_add, List.length_cons]
      omega

end Buffer

namespace BufferHistory

variable {α : Type}

theorem Sound.idle {h : BufferHistory α} (hs : h.Sound) (hout : h.out = []) :
    h.buffer.inFlight = [] := by
  simpa [hout] using hs.inFlight

/-- After any actions that leave no batch out, items are added. The buffer then
holds the last of what it held and the items, as many as it can, in their order,
and a batch without a bound hands out just these. The number that is returned is
how many fell off the front, and how many more the buffer has dropped. -/
theorem addAll_keeps_newest (capacity : Nat) (actions : List (BufferAction α)) (xs : List α) :
    let h := (start capacity : BufferHistory α).run actions
    let stock := h.buffer.entries ++ Entry.numbered h.added.length xs
    let after := (h.buffer.addAllCounted xs).1
    let returned := (h.buffer.addAllCounted xs).2
    h.out = [] →
      after.entries = stock.rtake (max capacity 1) ∧
        after.entries.map Entry.item =
          (h.buffer.entries.map Entry.item ++ xs).rtake (max capacity 1) ∧
        (∀ n, after.size ≤ n → (after.batch n).2 = after.entries) ∧
        returned = (stock.rdrop (max capacity 1)).length ∧
        after.dropped = h.buffer.dropped + returned := by
  intro h stock after returned hout
  have hs : h.Sound := (sound_start capacity).run actions
  have hidle := hs.idle hout
  have hcapacity : h.buffer.capacity = max capacity 1 := capacity_run _ _
  have hafter : after = h.buffer.addAll xs := h.buffer.fst_addAllCounted xs
  have hentries : after.entries = stock.rtake (max capacity 1) := by
    rw [hafter, hs.valid.entries_addAll xs, hs.nextSeq, hcapacity]
  refine ⟨hentries, ?_, fun n hn => ?_, ?_, ?_⟩
  · have hitems : stock.map Entry.item = h.buffer.entries.map Entry.item ++ xs := by
      rw [List.map_append, Entry.map_item_numbered]
    rw [hentries, ← hitems, List.rtake, List.rtake, List.length_map, List.map_drop]
  · have hrest : after.inFlight = [] := by
      rw [hafter, (Buffer.accounts_addAll h.buffer xs).1, hidle]
    rw [Buffer.batch_of_idle hrest, List.take_of_length_le hn]
  · have hreturned : returned = h.buffer.size + xs.length - max capacity 1 := by
      rw [← hcapacity]
      exact hs.valid.losses_addAll hidle xs
    rw [hreturned, List.rdrop, List.length_take, List.length_append, Entry.length_numbered,
      Buffer.size]
    omega
  · rw [hafter]
    exact h.buffer.dropped_addAll xs

/-- Actions after which a batch has been pushed out and has come back, and
another one has been written. -/
def reopened : List (BufferAction Nat) :=
  [.addAll [1, 2, 3], .batch 2, .addAll [4, 5], .reject 0, .batch 1, .add 6, .accept 0]

theorem addAll_keeps_newest_reopened :
    let h := (start 3).run reopened
    let after := (h.buffer.addAllCounted [7, 8]).1
    h.out = [] ∧ h.buffer.entries.map Entry.item = [2, 3, 6] ∧ h.buffer.dropped = 2 ∧
      after.entries.map Entry.item = [6, 7, 8] ∧ (after.batch 3).2 = after.entries ∧
      (h.buffer.addAllCounted [7, 8]).2 = 2 ∧ after.dropped = 4 := by
  intro h after
  have hout : h.out = [] := by decide
  have hheld : h.buffer.entries.map Entry.item = [2, 3, 6] := by decide
  have hbefore : h.buffer.dropped = 2 := by decide
  obtain ⟨-, hitems, hbatch, hreturned, hdropped⟩ :=
    addAll_keeps_newest 3 reopened [7, 8] hout
  have htwo : (h.buffer.addAllCounted [7, 8]).2 = 2 := hreturned.trans (by decide)
  refine ⟨hout, hheld, hbefore, hitems.trans ?_, hbatch 3 (by decide), htwo, ?_⟩
  · change (h.buffer.entries.map Entry.item ++ [7, 8]).rtake 3 = _
    rw [hheld]
    rfl
  · exact hdropped.trans (congrArg₂ (· + ·) hbefore htwo)

end BufferHistory

end MetricAgent
