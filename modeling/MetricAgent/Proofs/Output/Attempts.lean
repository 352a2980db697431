import MetricAgent.Proofs.Buffer.Turnover
import MetricAgent.Proofs.Output.Wakes

/-!
# One write, whatever comes in meanwhile

An output is at rest while its sink looks at no batch. `Output.Progress` says
what has become of it since an earlier moment of rest: which metrics were handed
in, which entries the sink took, and how many writes failed. A single write is
one piece of progress, whether it succeeds (`Resting.attempt_succeeded`) or not
(`Resting.attempt_failed`), and pieces add up (`Progress.trans`).

A write that fails sets nothing back. Its batch waits at the front again, however
much came in, and all that had to go for it is newer
(`OutputHistory.refused_batch_in_front`).
-/

namespace MetricAgent

namespace Output

variable {o p q : Output} {adds more : List Metric} {taken later : Batch Metric} {k l : Nat}

/-- Takes at most `n` metrics out and hands them to the sink, which reacts. -/
def attempt (o : Output) (n : Nat) (r : Reaction) : Output × SinkWrite :=
  (o.beginWrite n).1.send (o.beginWrite n).2 r

/-- No batch is out, and all drops have been counted. -/
structure Resting (o : Output) : Prop where
  valid : o.buffer.Valid
  idle : o.buffer.inFlight = []
  dropped : o.stats.dropped = o.buffer.dropped

/-- From `o` on, the metrics `adds` were handed in, the sink took the entries
`taken`, and `k` writes failed. That led to `p`, which is at rest again. -/
structure Progress (o : Output) (adds : List Metric) (taken : Batch Metric) (k : Nat)
    (p : Output) : Prop where
  name : p.name = o.name
  batchSize : p.batchSize = o.batchSize
  admit? : p.admit? = o.admit?
  turnover : o.buffer.Turnover (adds.filterMap o.admit?) taken p.buffer
  dropped : p.stats.dropped = p.buffer.dropped
  written : p.stats.written = o.stats.written + taken.length
  errors : p.stats.errors = o.stats.errors + k

theorem Resting.progress (h : o.Resting) : o.Progress [] [] 0 o :=
  ⟨rfl, rfl, rfl, h.valid.turnover h.idle, h.dropped, rfl, rfl⟩

theorem Progress.resting (hp : o.Progress adds taken k p) : p.Resting :=
  ⟨hp.turnover.valid, hp.turnover.idle, hp.dropped⟩

theorem Progress.trans (h : o.Resting) (hp : o.Progress adds taken k p)
    (hq : p.Progress more later l q) : o.Progress (adds ++ more) (taken ++ later) (k + l) q where
  name := hq.name.trans hp.name
  batchSize := hq.batchSize.trans hp.batchSize
  admit? := hq.admit?.trans hp.admit?
  turnover := by
    rw [List.filterMap_append, ← hp.admit?]
    exact (hp.admit? ▸ hp.turnover).trans h.valid hq.turnover
  dropped := hq.dropped
  written := by rw [hq.written, hp.written, List.length_append, Nat.add_assoc]
  errors := by rw [hq.errors, hp.errors, Nat.add_assoc]

/-! ### Metrics that come in during a write -/

theorem buffer_addAll (o : Output) (ms : List Metric) :
    (o.addAll ms).1.buffer = o.buffer.addAll (ms.filterMap o.admit?) := by
  induction ms generalizing o with
  | nil => rfl
  | cons m ms ih =>
      change ((o.add m).1.addAll ms).1.buffer = _
      rw [ih, admit?_add, buffer_add, List.filterMap_cons]
      cases o.admit? m <;> rfl

theorem add_keeps (o : Output) (m : Metric) :
    (o.add m).1.name = o.name ∧ (o.add m).1.stats.written = o.stats.written ∧
      (o.add m).1.stats.errors = o.stats.errors := by
  unfold add
  split <;> exact ⟨rfl, rfl, rfl⟩

theorem addAll_keeps (o : Output) (ms : List Metric) :
    (o.addAll ms).1.name = o.name ∧ (o.addAll ms).1.stats.written = o.stats.written ∧
      (o.addAll ms).1.stats.errors = o.stats.errors := by
  induction ms generalizing o with
  | nil => exact ⟨rfl, rfl, rfl⟩
  | cons m ms ih =>
      obtain ⟨hname, hwritten, herrors⟩ := o.add_keeps m
      obtain ⟨hname', hwritten', herrors'⟩ := ih (o.add m).1
      exact ⟨hname'.trans hname, hwritten'.trans hwritten, herrors'.trans herrors⟩

/-- The drops are counted anew when a changed buffer is taken in. -/
theorem dropped_withBuffer {b : Buffer Metric} (h : o.stats.dropped = o.buffer.dropped)
    (hle : o.buffer.dropped ≤ b.dropped) : (o.withBuffer b).stats.dropped = b.dropped :=
  Nat.max_eq_right (h ▸ hle)

theorem dropped_add (h : o.stats.dropped = o.buffer.dropped) (m : Metric) :
    (o.add m).1.stats.dropped = (o.add m).1.buffer.dropped := by
  unfold add
  split
  · exact h
  · next n _ => exact dropped_withBuffer h (Buffer.accounts_add o.buffer _).le_dropped

theorem dropped_addAll (h : o.stats.dropped = o.buffer.dropped) (ms : List Metric) :
    (o.addAll ms).1.stats.dropped = (o.addAll ms).1.buffer.dropped := by
  induction ms generalizing o with
  | nil => exact h
  | cons m ms ih => exact ih (dropped_add h m)

theorem Resting.underway (h : o.Resting) (n : Nat) (ms : List Metric) :
    o.buffer.Underway n (ms.filterMap o.admit?) ((o.beginWrite n).1.addAll ms).1.buffer := by
  rw [buffer_addAll, admit?_beginWrite]
  exact h.valid.underway h.idle n _

/-! ### One write -/

theorem Resting.beginWrite_snd (h : o.Resting) (n : Nat) :
    (o.beginWrite n).2 = o.buffer.entries.take n := by
  rw [beginWrite, Buffer.batch_of_idle h.idle]

theorem Resting.metrics_attempt (h : o.Resting) (n : Nat) (r : Reaction) :
    (o.attempt n r).2.metrics = (o.buffer.entries.take n).map Entry.item := by
  rw [← h.beginWrite_snd]
  rfl

/-- The batch is out while metrics come in, and ends as the sink says. -/
theorem Resting.attempt_fst (h : o.Resting) (n : Nat) (r : Reaction) :
    (o.attempt n r).1 =
      ((o.beginWrite n).1.addAll r.adds).1.endWrite (o.buffer.entries.take n) r.failure.isNone := by
  rw [← h.beginWrite_snd]
  rfl

theorem Resting.dropped_addAll_beginWrite (h : o.Resting) (n : Nat) (ms : List Metric) :
    ((o.beginWrite n).1.addAll ms).1.stats.dropped =
      ((o.beginWrite n).1.addAll ms).1.buffer.dropped :=
  dropped_addAll (o := (o.beginWrite n).1) h.dropped ms

theorem Resting.attempt_succeeded (h : o.Resting) (n : Nat) {r : Reaction}
    (hr : r.failure = none) :
    o.Progress r.adds (o.buffer.entries.take n) 0 (o.attempt n r).1 := by
  obtain ⟨hname, hwritten, herrors⟩ := (o.beginWrite n).1.addAll_keeps r.adds
  have hdropped := h.dropped_addAll_beginWrite n r.adds
  rw [h.attempt_fst, hr]
  refine ⟨hname, batchSize_addAll _ _, ?_, (h.underway n r.adds).turnover_accept h.valid, ?_, ?_,
    herrors⟩
  · rw [admit?_endWrite, admit?_addAll, admit?_beginWrite]
  · exact dropped_withBuffer hdropped (Nat.le_refl _)
  · exact congrArg (· + (o.buffer.entries.take n).length) hwritten

theorem Resting.attempt_failed (h : o.Resting) (n : Nat) {r : Reaction} {text : String}
    (hr : r.failure = some text) : o.Progress r.adds [] 1 (o.attempt n r).1 := by
  let out := o.buffer.entries.take n
  obtain ⟨hname, hwritten, herrors⟩ := (o.beginWrite n).1.addAll_keeps r.adds
  have hdropped := h.dropped_addAll_beginWrite n r.adds
  have hle := (((o.beginWrite n).1.addAll r.adds).1.buffer.accounts_reject out).le_dropped
  rw [h.attempt_fst, hr]
  refine ⟨hname, batchSize_addAll _ _, ?_, (h.underway n r.adds).turnover_reject, ?_, hwritten,
    ?_⟩
  · rw [admit?_endWrite, admit?_addAll, admit?_beginWrite]
  · exact dropped_withBuffer hdropped hle
  · exact congrArg (· + 1) herrors

/-- A batch that the sink refuses waits at the front again. -/
theorem Resting.front_attempt_failed (h : o.Resting) (n : Nat) {r : Reaction} {text : String}
    (hr : r.failure = some text) :
    o.buffer.entries.take n <+: (o.attempt n r).1.buffer.entries := by
  rw [h.attempt_fst, hr]
  exact (h.underway n r.adds).prefix_reject h.valid

/-- What a write that failed has cost is newer than its batch. -/
theorem Resting.newer_of_lost (h : o.Resting) (n : Nat) {r : Reaction} {text : String}
    (hr : r.failure = some text) :
    ∃ lost, (o.buffer.entries ++ Entry.numbered o.buffer.nextSeq (r.adds.filterMap o.admit?)).Perm
        ((o.attempt n r).1.buffer.entries ++ lost) ∧
      (o.attempt n r).1.stats.dropped = o.stats.dropped + lost.length ∧
      ∀ e ∈ lost, ∀ f ∈ o.buffer.entries.take n, f.seq < e.seq := by
  have hfront := h.front_attempt_failed n hr
  have hp := h.attempt_failed n hr
  obtain ⟨lost, hstock, hdropped⟩ := hp.turnover.balance
  rw [List.nil_append] at hstock
  refine ⟨lost, hstock, ?_, fun e he f hf => ?_⟩
  · rw [hp.dropped, hdropped, h.dropped]
  · refine h.valid.newer_of_not_mem hf (hstock.mem_iff.2 (List.mem_append_right _ he)) fun hmem => ?_
    have hd := hstock.nodup_iff.1 (Entry.nodup_of_sorted (h.valid.sorted_stock _)).of_map
    exact (List.nodup_append.1 hd).2.2 e (hfront.subset hmem) e he rfl

theorem Resting.buffer_attempt_failed (h : o.Resting) (n : Nat) {r : Reaction} {text : String}
    (hr : r.failure = some text) (hnone : r.adds.filterMap o.admit? = []) :
    (o.attempt n r).1.buffer = o.buffer := by
  have hmid : ((o.beginWrite n).1.addAll r.adds).1.buffer = (o.buffer.batch n).1 := by
    rw [buffer_addAll, admit?_beginWrite, hnone]
    rfl
  have hback := h.valid.reject_batch n
  rw [← hmid] at hback
  rw [h.attempt_fst, hr, ← h.beginWrite_snd]
  exact hback

end Output

namespace OutputHistory

/-- Between writes, an output is at rest. -/
theorem resting_of_writing_eq_none {s : OutputSettings} {maxBatch : Option Nat}
    {cs : List OutputCall} {ms : List OutputMove}
    (hw : (((start s maxBatch).calls cs).moves ms).writing = none) :
    (((start s maxBatch).calls cs).moves ms).output.Resting := by
  obtain ⟨-, before, hbefore⟩ := exists_moves_calls (h := start s maxBatch) rfl cs
  rw [hbefore, ← moves_append] at hw ⊢
  obtain ⟨b, ht⟩ := (tracks_start s maxBatch).moves (before ++ ms)
  have hc := (counted_start s maxBatch).moves (before ++ ms)
  exact ⟨ht.valid, ht.inFlight_eq_nil hw, hc.dropped⟩

theorem resting_calls (s : OutputSettings) (maxBatch : Option Nat) (cs : List OutputCall) :
    ((start s maxBatch).calls cs).output.Resting := by
  have hidle : (((start s maxBatch).calls cs).moves []).writing = none :=
    (exists_moves_calls (h := start s maxBatch) rfl cs).1
  exact resting_of_writing_eq_none hidle

/-- After any calls, and at any point of a further one at which no write is in
progress, the sink is handed a batch, hands some metrics in and fails. Then the
batch is complete and in order at the front, among the oldest entries, where the
next batch begins. What was dropped meanwhile is newer than all of the batch,
nothing was written, and one error was counted. If nothing came in, the buffer is
as it was. -/
theorem refused_batch_in_front (s : OutputSettings) (maxBatch : Option Nat) (cs : List OutputCall)
    (ms : List OutputMove) (n : Nat) (adds : List Metric) (text : String) :
    let h := ((start s maxBatch).calls cs).moves ms
    let o := h.output
    let batch := (o.beginWrite n).2
    let after := (o.attempt n ⟨adds, some text⟩).1
    let incoming := Entry.numbered o.buffer.nextSeq (adds.filterMap o.admit?)
    h.writing = none →
      batch = o.buffer.entries.take n ∧ batch <+: after.buffer.entries ∧
        (after.buffer.entries.Pairwise fun e f => e.seq < f.seq) ∧
        (∀ k, (after.beginWrite k).2 = after.buffer.entries.take k) ∧
        (∃ lost, (o.buffer.entries ++ incoming).Perm (after.buffer.entries ++ lost) ∧
          after.stats.dropped = o.stats.dropped + lost.length ∧
          ∀ e ∈ lost, ∀ f ∈ batch, f.seq < e.seq) ∧
        after.stats.written = o.stats.written ∧ after.stats.errors = o.stats.errors + 1 ∧
        (incoming = [] → after.buffer = o.buffer) := by
  intro h o batch after incoming hw
  have hrest : o.Resting := resting_of_writing_eq_none hw
  have hp := hrest.attempt_failed n (r := ⟨adds, some text⟩) rfl
  have hbatch : batch = o.buffer.entries.take n := hrest.beginWrite_snd n
  have hfront := hrest.front_attempt_failed n (r := ⟨adds, some text⟩) rfl
  have hlost := hrest.newer_of_lost n (r := ⟨adds, some text⟩) rfl
  refine ⟨hbatch, hbatch ▸ hfront, hp.turnover.valid.sorted, hp.resting.beginWrite_snd,
    hbatch ▸ hlost, hp.written, hp.errors, fun hnone => ?_⟩
  refine hrest.buffer_attempt_failed n rfl ?_
  have hitems := congrArg (List.map Entry.item) hnone
  rwa [Entry.map_item_numbered] at hitems

/-- The whole batch is pushed out while the sink looks at it. -/
theorem refused_batch_in_front_burst :
    let h := (start ⟨"file", none, 2, 3, .none, .empty⟩ none).calls (burst.map .add)
    let batch := (h.output.beginWrite 2).2
    let after := (h.output.attempt 2 ⟨burst, some "refused"⟩).1
    h.writing = none ∧ batch.map Entry.seq = [1, 2] ∧ batch <+: after.buffer.entries ∧
      after.buffer.entries.map Entry.seq = [1, 2, 5] ∧ after.stats.errors = 1 ∧
      after.stats.dropped = 5 := by
  intro h batch after
  have hw : h.writing = none := rfl
  obtain ⟨-, hfront, -, -, -, -, herrors, -⟩ := refused_batch_in_front
    ⟨"file", none, 2, 3, .none, .empty⟩ none (burst.map .add) [] 2 burst "refused" hw
  refine ⟨hw, ?_, hfront, ?_, herrors, ?_⟩
  · decide +kernel
  · decide +kernel
  · decide +kernel

end OutputHistory

end MetricAgent
