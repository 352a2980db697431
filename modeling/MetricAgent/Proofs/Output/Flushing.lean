import MetricAgent.Proofs.Buffer.Turnover
import MetricAgent.Proofs.Output.Delivery

/-!
# Flushes that succeed

With no batch out, a batch is the beginning of what a buffer holds, and when it
has been accepted the rest is held (`Buffer.Valid.accept_batch`). So a flush
during which the sink takes everything and nothing comes in leaves exactly what
it did not ask for: what is behind the first batch, or nothing at all.
-/

namespace MetricAgent

namespace Output

variable {o : Output}

/-- The output after a batch of at most `n` metrics was written. -/
theorem buffer_send (h : o.buffer.Valid) (hidle : o.buffer.inFlight = []) (n : Nat) :
    ((o.beginWrite n).1.send (o.beginWrite n).2 ⟨[], none⟩).1.buffer =
      { o.buffer with entries := o.buffer.entries.drop n } := by
  rw [← h.accept_batch hidle n]
  rfl

theorem buffer_beginWrite_of_isEmpty {n : Nat} (hidle : o.buffer.inFlight = [])
    (hb : (o.beginWrite n).2.isEmpty = true) :
    (o.beginWrite n).1.buffer = { o.buffer with entries := o.buffer.entries.drop n } := by
  have hnil : (o.buffer.batch n).2 = [] := List.isEmpty_iff.1 hb
  have hsame : (o.beginWrite n).1.buffer = o.buffer := Buffer.batch_of_eq_nil hnil
  rw [Buffer.batch_of_idle hidle] at hnil
  rw [hsame]
  rcases List.take_eq_nil_iff.1 hnil with hzero | hentries
  · rw [hzero, List.drop_zero]
  · simp only [hentries, List.drop_nil]
    rw [← hentries]

theorem buffer_writeBatch (h : o.buffer.Valid) (hidle : o.buffer.inFlight = []) :
    (o.writeBatch []).output.buffer =
      { o.buffer with entries := o.buffer.entries.drop o.batchSize } := by
  cases hb : (o.beginWrite o.batchSize).2.isEmpty with
  | true =>
      rw [← buffer_beginWrite_of_isEmpty hidle hb]
      simp only [writeBatch, hb, if_true]
  | false =>
      rw [← buffer_send h hidle o.batchSize]
      simp only [writeBatch, hb, Bool.false_eq_true, if_false, nextReaction]

/-- At most `remaining` metrics are written, however large the batches are. -/
theorem buffer_writeLoop {fuel remaining : Nat} (h : o.buffer.Valid)
    (hidle : o.buffer.inFlight = []) (hpos : 0 < o.batchSize) (hfuel : remaining ≤ fuel) :
    (writeLoop fuel remaining o []).output.buffer =
      { o.buffer with entries := o.buffer.entries.drop remaining } := by
  induction fuel generalizing o remaining with
  | zero =>
      rw [Nat.le_zero.1 hfuel, List.drop_zero]
      rfl
  | succ fuel ih =>
      let n := min o.batchSize remaining
      cases hb : (o.beginWrite n).2.isEmpty with
      | true =>
          have hnil : o.buffer.entries.take n = [] := by
            simpa only [beginWrite, Buffer.batch_of_idle hidle, List.isEmpty_iff] using hb
          have hdrop : o.buffer.entries.drop n = o.buffer.entries.drop remaining := by
            rcases List.take_eq_nil_iff.1 hnil with hzero | hentries
            · rw [show remaining = n by omega]
            · rw [hentries, List.drop_nil, List.drop_nil]
          rw [← hdrop, ← buffer_beginWrite_of_isEmpty hidle hb]
          simp only [writeLoop, n, hb, if_true]
      | false =>
          let sent := ((o.beginWrite n).1.send (o.beginWrite n).2 ⟨[], none⟩).1
          have hsent : sent.buffer = { o.buffer with entries := o.buffer.entries.drop n } :=
            buffer_send h hidle n
          have hlen : (o.beginWrite n).2.length = min n o.buffer.entries.length := by
            simp only [beginWrite, Buffer.batch_of_idle hidle, List.length_take]
          have hsome : 0 < (o.beginWrite n).2.length := by
            rw [List.length_pos_iff, ← List.isEmpty_eq_false_iff]
            exact hb
          -- The batch is not empty, so what remains falls as the fuel does.
          have hrest : (writeLoop fuel (remaining - (o.beginWrite n).2.length) sent []).output.buffer =
              { sent.buffer with
                entries := sent.buffer.entries.drop (remaining - (o.beginWrite n).2.length) } :=
            ih (hsent ▸ h.drop hidle n) (hsent ▸ hidle) hpos (by omega)
          have hdrop : (o.buffer.entries.drop n).drop (remaining - (o.beginWrite n).2.length) =
              o.buffer.entries.drop remaining := by
            rw [List.drop_drop, hlen]
            by_cases hall : n ≤ o.buffer.entries.length
            · rw [show n + (remaining - min n o.buffer.entries.length) = remaining by omega]
            · rw [List.drop_eq_nil_of_le (by omega), List.drop_eq_nil_of_le (by omega)]
          rw [hsent, hdrop] at hrest
          rw [← hrest]
          simp only [writeLoop, n, hb, Bool.false_eq_true, if_false, nextReaction, sent]

theorem buffer_write (h : o.buffer.Valid) (hidle : o.buffer.inFlight = [])
    (hpos : 0 < o.batchSize) :
    (o.write []).output.buffer = { o.buffer with entries := [] } := by
  unfold write
  rw [buffer_writeLoop h hidle hpos (Nat.le_refl _)]
  simp only [Buffer.size, List.drop_length]

end Output
end MetricAgent
