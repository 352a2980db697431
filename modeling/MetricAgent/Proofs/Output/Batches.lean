import MetricAgent.Proofs.Output.Attempts

/-!
# A write spends a budget

A write hands over as many metrics as were buffered when it began, batch by
batch, and stops at the first failure. What the sink sees is then a matter of
arithmetic: `Output.Spends` describes the log of a write by the budget that is
left before each batch, without a word about the buffer.

That every batch is as large as the budget and the batch size allow is due to the
buffer. Metrics that come in during a write may push others out, but they take
their places, and a batch that was taken leaves no fewer entries than the budget
that is left (`Output.Resting.size_le_attempt`). So the batches never run short
(`Output.Resting.writeLoop`).
-/

namespace MetricAgent

namespace Output

variable {o : Output} {size budget fuel n : Nat} {script : List Reaction} {log : List SinkWrite}
  {failure : Option String} {w : SinkWrite} {text : String}

/-- A log of writes that spends a budget of metrics, in batches of at most `size`,
up to the first failure. -/
inductive Spends (size : Nat) :
    Nat → List Reaction → List SinkWrite → Option String → Prop where
  | done (script : List Reaction) : Spends size 0 script [] none
  | failed {budget : Nat} {script : List Reaction} {w : SinkWrite} {text : String}
      (pos : 0 < budget) (length : w.metrics.length = min size budget)
      (reaction : w.failure = (nextReaction script).1.failure) (refused : w.failure = some text) :
      Spends size budget script [w] (some text)
  | took {budget : Nat} {script : List Reaction} {w : SinkWrite} {log : List SinkWrite}
      {failure : Option String} (pos : 0 < budget) (length : w.metrics.length = min size budget)
      (reaction : w.failure = (nextReaction script).1.failure) (taken : w.failure = none)
      (rest : Spends size (budget - min size budget) (nextReaction script).2 log failure) :
      Spends size budget script (w :: log) failure

theorem Spends.length_metrics (h : Spends size budget script log failure) (hpos : 0 < size) :
    ∀ w ∈ log, 1 ≤ w.metrics.length ∧ w.metrics.length ≤ size := by
  induction h with
  | done => simp
  | failed pos length =>
      intro w hw
      rw [List.mem_singleton.1 hw]
      omega
  | took pos length _ _ _ ih =>
      intro w hw
      rcases List.mem_cons.1 hw with rfl | hw
      · omega
      · exact ih w hw

/-- A batch of a budget is one batch less of what is left. -/
theorem batches_eq_succ (hpos : 0 < size) (hbudget : 0 < budget) :
    (budget + size - 1) / size = (budget - min size budget + size - 1) / size + 1 := by
  rcases Nat.le_total budget size with hle | hle
  · have hone : (budget + size - 1) / size = 1 := Nat.div_eq_of_lt_le (by omega) (by omega)
    rw [Nat.min_eq_right hle, Nat.sub_self, Nat.zero_add, hone,
      Nat.div_eq_of_lt (Nat.sub_one_lt_of_lt hpos)]
  · rw [Nat.min_eq_left hle, ← Nat.add_div_right _ hpos]
    congr 1
    omega

theorem Spends.length_le (h : Spends size budget script log failure) (hpos : 0 < size) :
    log.length ≤ (budget + size - 1) / size := by
  induction h with
  | done => exact Nat.zero_le _
  | failed pos =>
      rw [batches_eq_succ hpos pos, List.length_singleton]
      exact Nat.le_add_left _ _
  | took pos _ _ _ _ ih =>
      rw [batches_eq_succ hpos pos, List.length_cons]
      exact Nat.succ_le_succ ih

/-- Where no write failed, the budget was spent, in as few batches as can be. -/
theorem Spends.all_taken (h : Spends size budget script log failure) (hpos : 0 < size)
    (hall : ∀ w ∈ log, w.failure = none) :
    failure = none ∧ log.length = (budget + size - 1) / size ∧
      (log.flatMap SinkWrite.metrics).length = budget := by
  induction h with
  | done =>
      rw [Nat.zero_add, Nat.div_eq_of_lt (Nat.sub_one_lt_of_lt hpos)]
      exact ⟨rfl, rfl, rfl⟩
  | @failed _ _ w _ _ _ _ refused =>
      rw [hall w List.mem_cons_self] at refused
      cases refused
  | took pos length _ _ _ ih =>
      obtain ⟨hnone, hlog, htotal⟩ := ih fun w hw => hall w (List.mem_cons_of_mem _ hw)
      refine ⟨hnone, ?_, ?_⟩
      · rw [batches_eq_succ hpos pos, List.length_cons, hlog]
      · rw [List.flatMap_cons, List.length_append, htotal, length]
        omega

/-- A write that failed was the last one, and the first that did. -/
theorem Spends.failed_last (h : Spends size budget script log failure) {k : Nat}
    (hw : log[k]? = some w) (hf : w.failure = some text) :
    log.length = k + 1 ∧ failure = some text ∧
      (log.filter fun w => w.failure.isNone) = log.take k := by
  induction h generalizing k with
  | done => simp at hw
  | @failed _ _ v _ _ _ _ refused =>
      rw [List.getElem?_singleton, Option.ite_none_right_eq_some, Option.some.injEq] at hw
      obtain ⟨rfl, rfl⟩ := hw
      rw [refused] at hf
      refine ⟨rfl, hf, ?_⟩
      simp [refused]
  | took _ _ _ taken _ ih =>
      cases k with
      | zero =>
          obtain rfl := Option.some.inj hw
          rw [taken] at hf
          cases hf
      | succ k =>
          obtain ⟨hlen, hfailure, htaken⟩ := ih (by simpa using hw)
          refine ⟨by rw [List.length_cons, hlen], hfailure, ?_⟩
          rw [List.filter_cons_of_pos (by rw [taken]; rfl), htaken, List.take_succ_cons]

theorem Spends.reaction (h : Spends size budget script log failure) {k : Nat}
    (hw : log[k]? = some w) : w.failure = (script[k]?).bind Reaction.failure := by
  have hnext (script : List Reaction) : (nextReaction script).1.failure =
      (script[0]?).bind Reaction.failure ∧ ∀ k, (nextReaction script).2[k]? = script[k + 1]? := by
    cases script with
    | nil => exact ⟨rfl, fun k => rfl⟩
    | cons r rest => exact ⟨rfl, fun k => rfl⟩
  induction h generalizing k with
  | done => simp at hw
  | failed _ _ reaction =>
      rw [List.getElem?_singleton, Option.ite_none_right_eq_some, Option.some.injEq] at hw
      obtain ⟨rfl, rfl⟩ := hw
      exact reaction.trans (hnext _).1
  | took _ _ reaction _ _ ih =>
      cases k with
      | zero =>
          obtain rfl := Option.some.inj hw
          exact reaction.trans (hnext _).1
      | succ k =>
          rw [← (hnext _).2 k]
          exact ih (by simpa using hw)

/-! ### The turns of a write -/

theorem beginWrite_zero (o : Output) : o.beginWrite 0 = (o, []) := by
  have hnil : (o.buffer.batch 0).2 = [] := by simp only [Buffer.batch, List.take_zero]
  have hzero : o.buffer.batch 0 = (o.buffer, []) := Prod.ext (Buffer.batch_of_eq_nil hnil) hnil
  rw [beginWrite, hzero]

theorem writeLoop_zero (fuel : Nat) (o : Output) (script : List Reaction) :
    writeLoop fuel 0 o script = ⟨o, script, [], none⟩ := by
  cases fuel with
  | zero => rfl
  | succ fuel => simp only [writeLoop, Nat.min_zero, beginWrite_zero, List.isEmpty_nil, if_true]

theorem writeLoop_of_failed (hsome : (o.beginWrite (min o.batchSize budget)).2.isEmpty = false)
    (hf : (nextReaction script).1.failure = some text) :
    let tried := o.attempt (min o.batchSize budget) (nextReaction script).1
    writeLoop (fuel + 1) budget o script =
      ⟨tried.1, (nextReaction script).2, [tried.2], some text⟩ := by
  simp only [writeLoop, hsome, Bool.false_eq_true, if_false, hf]
  rfl

theorem writeLoop_of_took (hsome : (o.beginWrite (min o.batchSize budget)).2.isEmpty = false)
    (hf : (nextReaction script).1.failure = none) :
    let tried := o.attempt (min o.batchSize budget) (nextReaction script).1
    let f := writeLoop fuel (budget - (o.beginWrite (min o.batchSize budget)).2.length) tried.1
      (nextReaction script).2
    writeLoop (fuel + 1) budget o script = { f with log := tried.2 :: f.log } := by
  simp only [writeLoop, hsome, Bool.false_eq_true, if_false, hf]
  rfl

/-- A write takes no more turns than its budget allows. -/
theorem writeLoop_congr {m : Nat} (h : budget ≤ fuel) (h' : budget ≤ m) :
    writeLoop fuel budget o script = writeLoop m budget o script := by
  induction fuel generalizing m budget o script with
  | zero => rw [Nat.le_zero.1 h, writeLoop_zero, writeLoop_zero]
  | succ fuel ih =>
      cases m with
      | zero => rw [Nat.le_zero.1 h', writeLoop_zero, writeLoop_zero]
      | succ m =>
          cases hsome : (o.beginWrite (min o.batchSize budget)).2.isEmpty with
          | true => simp only [writeLoop, hsome, if_true]
          | false =>
              have hlen : 0 < (o.beginWrite (min o.batchSize budget)).2.length := by
                rw [List.length_pos_iff, ← List.isEmpty_eq_false_iff]
                exact hsome
              cases hf : (nextReaction script).1.failure with
              | some text => rw [writeLoop_of_failed hsome hf, writeLoop_of_failed hsome hf]
              | none =>
                  rw [writeLoop_of_took hsome hf, writeLoop_of_took hsome hf,
                    ih (m := m) (by omega) (by omega)]

/-- A batch that was taken leaves as many entries as it leaves of the budget. -/
theorem Resting.size_le_attempt (h : o.Resting) (n : Nat) {r : Reaction} (hr : r.failure = none) :
    o.buffer.size ≤ (o.attempt n r).1.buffer.size + (o.buffer.entries.take n).length := by
  rw [h.attempt_fst, hr]
  exact (h.underway n r.adds).size_le_accept h.valid

/-- A write spends its budget, and the output makes progress by what was taken. -/
theorem Resting.writeLoop (h : o.Resting) (hpos : 0 < o.batchSize) (hsize : budget ≤ o.buffer.size)
    (hfuel : budget ≤ fuel) (script : List Reaction) :
    let f := Output.writeLoop fuel budget o script
    Spends o.batchSize budget script f.log f.failure ∧
      ∃ taken, taken.map Entry.item =
          (f.log.filter fun w => w.failure.isNone).flatMap SinkWrite.metrics ∧
        o.Progress ((script.take f.log.length).flatMap Reaction.adds) taken
          (f.log.countP fun w => w.failure.isSome) f.output := by
  induction fuel generalizing o budget script with
  | zero =>
      rw [Nat.le_zero.1 hfuel, writeLoop_zero]
      exact ⟨.done script, [], rfl, h.progress⟩
  | succ fuel ih =>
      rcases Nat.eq_zero_or_pos budget with rfl | hbudget
      · rw [writeLoop_zero]
        exact ⟨.done script, [], rfl, h.progress⟩
      · let n := min o.batchSize budget
        let r := (nextReaction script).1
        let tried := o.attempt n r
        have hlen : (o.buffer.entries.take n).length = n := by
          rw [List.length_take]
          rw [Buffer.size] at hsize
          omega
        have hsome : (o.beginWrite n).2.isEmpty = false := by
          rw [h.beginWrite_snd, List.isEmpty_eq_false_iff, ← List.length_pos_iff, hlen]
          omega
        have hmetrics : tried.2.metrics.length = n := by
          rw [h.metrics_attempt, List.length_map, hlen]
        have hbatch : (o.beginWrite n).2.length = n := by rw [h.beginWrite_snd, hlen]
        cases hf : r.failure with
        | some text =>
            rw [writeLoop_of_failed hsome hf]
            have htried : tried.2.failure = some text := hf
            refine ⟨.failed hbudget hmetrics rfl hf, [], ?_, ?_⟩
            · rw [List.filter_cons_of_neg (by rw [htried]; exact Bool.false_ne_true)]
              rfl
            · rw [List.length_singleton, OutputHistory.flatMap_adds_take, List.take_zero,
                List.flatMap_nil, List.append_nil, List.countP_singleton, htried]
              exact h.attempt_failed n hf
        | none =>
            have hp := h.attempt_succeeded n hf
            have hle : o.buffer.size ≤ tried.1.buffer.size + (o.buffer.entries.take n).length :=
              h.size_le_attempt n hf
            rw [hlen] at hle
            rw [writeLoop_of_took hsome hf, hbatch]
            obtain ⟨hspends, taken, hitems, hq⟩ := ih hp.resting (hp.batchSize ▸ hpos)
              (show budget - n ≤ tried.1.buffer.size by omega) (by omega) (nextReaction script).2
            rw [hp.batchSize] at hspends
            have htried : tried.2.failure = none := hf
            refine ⟨.took hbudget hmetrics rfl hf hspends, o.buffer.entries.take n ++ taken, ?_, ?_⟩
            · rw [List.filter_cons_of_pos (by rw [htried]; rfl), List.flatMap_cons, List.map_append,
                hitems, h.metrics_attempt]
            · rw [List.length_cons, OutputHistory.flatMap_adds_take,
                List.countP_cons_of_neg (by rw [htried]; exact Bool.false_ne_true)]
              have hall := hp.trans h hq
              rwa [Nat.zero_add] at hall

/-- What the sink took is no longer held, and all else is held or was dropped. -/
theorem Resting.write (h : o.Resting) (hpos : 0 < o.batchSize) (script : List Reaction) :
    let f := o.write script
    Spends o.batchSize o.buffer.size script f.log f.failure ∧
      ∃ taken, taken.map Entry.item =
          (f.log.filter fun w => w.failure.isNone).flatMap SinkWrite.metrics ∧
        o.Progress ((script.take f.log.length).flatMap Reaction.adds) taken
          (f.log.countP fun w => w.failure.isSome) f.output :=
  h.writeLoop hpos (Nat.le_refl _) (Nat.le_refl _) script

theorem error?_eq_of_failure {f : Flush} (hname : f.output.name = o.name)
    (hf : f.failure = some text) : f.error? = some (.write o.name text) := by
  rw [Flush.error?, hf, Option.map_some, hname]

theorem filter_isNone_of_all_taken (hall : ∀ w ∈ log, w.failure = none) :
    (log.filter fun w => w.failure.isNone) = log := by
  rw [List.filter_eq_self]
  intro w hw
  rw [hall w hw]
  rfl

/-- A write that the sink takes all of, while nothing is dropped, hands over what
was held and leaves what came in. -/
theorem Resting.write_of_all_taken (h : o.Resting) (hpos : 0 < o.batchSize)
    (hall : ∀ w ∈ (o.write script).log, w.failure = none)
    (hdropped : (o.write script).output.stats.dropped = o.stats.dropped) :
    (o.write script).log.flatMap SinkWrite.metrics = o.buffer.entries.map Entry.item ∧
      (o.write script).output.buffer.entries.map Entry.item =
        ((script.take (o.write script).log.length).flatMap Reaction.adds).filterMap o.admit? := by
  obtain ⟨hspends, taken, hitems, hp⟩ := h.write hpos script
  obtain ⟨-, -, htotal⟩ := hspends.all_taken hpos hall
  rw [filter_isNone_of_all_taken hall] at hitems
  have hlen : taken.length = o.buffer.entries.length := by
    rw [← List.length_map (f := Entry.item), hitems, htotal, Buffer.size]
  have hall := hp.turnover.append_eq h.valid
    (hp.dropped.symm.trans (hdropped.trans h.dropped))
  obtain ⟨htaken, hheld⟩ := List.append_inj hall hlen
  rw [← hitems, htaken, hheld, Entry.map_item_numbered]
  exact ⟨rfl, rfl⟩

end Output

namespace OutputHistory

/-- After any calls, a write ends by itself: further turns would change nothing.
The sink reacts as its script says. It sees at most as many batches as the
metrics buffered at the beginning fill, and none of them is empty or larger than
the batch size.

If it takes them all, they are just as many, and hand over as many metrics as
were buffered; these very ones, in order, if none was dropped meanwhile, and then
those that came in are left. If it fails, that was the last batch, the error is
returned, and exactly the batches before were taken. In any case each metric was
taken, is held, or was dropped, and what was taken is older than what is held. -/
theorem write_in_batches (s : OutputSettings) (maxBatch : Option Nat) (cs : List OutputCall)
    (script : List Reaction) :
    let o := ((start s maxBatch).calls cs).output
    let f := o.write script
    let batches := (o.buffer.size + o.batchSize - 1) / o.batchSize
    let incoming := ((script.take f.log.length).flatMap Reaction.adds).filterMap o.admit?
    (∀ turns, o.buffer.size ≤ turns → Output.writeLoop turns o.buffer.size o script = f) ∧
      (∀ (k : Nat) (w : SinkWrite), f.log[k]? = some w →
        w.failure = (script[k]?).bind Reaction.failure ∧
          1 ≤ w.metrics.length ∧ w.metrics.length ≤ o.batchSize) ∧
      f.log.length ≤ batches ∧
      ((∀ w ∈ f.log, w.failure = none) → f.error? = none ∧ f.log.length = batches ∧
        (f.log.flatMap SinkWrite.metrics).length = o.buffer.size ∧
        (f.output.stats.dropped = o.stats.dropped →
          f.log.flatMap SinkWrite.metrics = o.buffer.entries.map Entry.item ∧
            f.output.buffer.entries.map Entry.item = incoming)) ∧
      (∀ (k : Nat) (w : SinkWrite) (text : String), f.log[k]? = some w → w.failure = some text →
        f.log.length = k + 1 ∧ f.error? = some (.write o.name text) ∧
          (f.log.filter fun w => w.failure.isNone) = f.log.take k ∧
          f.output.stats.written =
            o.stats.written + ((f.log.take k).flatMap SinkWrite.metrics).length) ∧
      ∃ taken lost : List (Entry Metric),
        taken.map Entry.item = (f.log.filter fun w => w.failure.isNone).flatMap SinkWrite.metrics ∧
          (taken ++ f.output.buffer.entries).Pairwise (fun e f => e.seq < f.seq) ∧
          (o.buffer.entries ++ Entry.numbered o.buffer.nextSeq incoming).Perm
            (taken ++ f.output.buffer.entries ++ lost) ∧
          f.output.stats.dropped = o.stats.dropped + lost.length := by
  intro o f batches incoming
  have hrest : o.Resting := resting_calls s maxBatch cs
  have hpos : 0 < o.batchSize := by
    have hsize : o.batchSize = (Output.make s maxBatch).batchSize := batchSize_calls s maxBatch cs
    rw [hsize]
    exact Output.batchSize_make_pos s maxBatch
  obtain ⟨hspends, taken, hitems, hp⟩ := hrest.write hpos script
  refine ⟨fun turns hturns => Output.writeLoop_congr hturns (Nat.le_refl _), fun k w hw =>
    ⟨hspends.reaction hw, hspends.length_metrics hpos w (List.mem_of_getElem? hw)⟩,
    hspends.length_le hpos, fun hall => ?_, fun k w text hw hf => ?_, ?_⟩
  · obtain ⟨hnone, hlog, htotal⟩ := hspends.all_taken hpos hall
    exact ⟨congrArg (Option.map _) hnone, hlog, htotal, hrest.write_of_all_taken hpos hall⟩
  · obtain ⟨hlog, hfailure, htaken⟩ := hspends.failed_last hw hf
    refine ⟨hlog, Output.error?_eq_of_failure hp.name hfailure, htaken, hp.written.trans ?_⟩
    rw [← htaken, ← hitems, List.length_map]
  · obtain ⟨lost, hstock, hdropped⟩ := hp.turnover.balance
    refine ⟨taken, lost, hitems, hp.turnover.sorted, hstock, ?_⟩
    exact hp.dropped.trans (hdropped.trans (congrArg (· + lost.length) hrest.dropped.symm))

/-- A sink that hands metrics in during its first write, and takes all. Then one
that fails at the second. -/
theorem write_in_batches_burst :
    let o := ((start ⟨"file", none, 3, 10, .none, .empty⟩ none).calls (burst.map .add)).output
    (∃ f, f = o.write [⟨burst, none⟩] ∧ f.error? = none ∧
        f.log.flatMap SinkWrite.metrics = burst ∧
        f.output.buffer.entries.map Entry.item = burst) ∧
      ∃ f, f = o.write [⟨burst, none⟩, ⟨[], some "refused"⟩] ∧ f.log.length = 2 ∧
        f.error? = some (.write "file" "refused") := by
  constructor
  · have hmain := write_in_batches ⟨"file", none, 3, 10, .none, .empty⟩ none
      (burst.map .add) [⟨burst, none⟩]
    extract_lets o f batches incoming at hmain
    obtain ⟨-, -, -, hall, -, -⟩ := hmain
    have hlog : ∀ w ∈ f.log, w.failure = none := by decide +kernel
    have hdropped : f.output.stats.dropped = o.stats.dropped := by decide +kernel
    have hbefore : o.buffer.entries.map Entry.item = burst := by decide +kernel
    have hincoming : incoming = burst := by decide +kernel
    obtain ⟨herror, -, -, hkept⟩ := hall hlog
    obtain ⟨hmetrics, hheld⟩ := hkept hdropped
    exact ⟨f, rfl, herror, hmetrics.trans hbefore, hheld.trans hincoming⟩
  · have hmain := write_in_batches ⟨"file", none, 3, 10, .none, .empty⟩ none
      (burst.map .add) [⟨burst, none⟩, ⟨[], some "refused"⟩]
    extract_lets o f batches incoming at hmain
    obtain ⟨-, -, -, -, hfailed, -⟩ := hmain
    have hsecond : f.log[1]?.map SinkWrite.failure = some (some "refused") := by decide +kernel
    obtain ⟨w, hw, hf⟩ := Option.map_eq_some_iff.1 hsecond
    obtain ⟨hlog, herror, -, -⟩ := hfailed 1 w "refused" hw hf
    exact ⟨f, rfl, hlog, herror⟩

end OutputHistory

end MetricAgent
