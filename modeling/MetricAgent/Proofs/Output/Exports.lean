import Mathlib.Algebra.GroupWithZero.Nat
import MetricAgent.Proofs.Output.Delivery
import MetricAgent.Proofs.Telemetry

/-!
# What an output exports and reports

An output keeps its counts for whoever asks it, and exports them under names of
their own. Drops are counted in two more places: by the buffer, and, for those
of whom a report has told, in `Output.reportedDrops`. Every move adds to all of
these alike (`OutputStats.ExportedBy`), whether a metric is dropped as another
one comes in or as a batch comes back.

`OutputAudit` follows an output whose drops are reported now and then, also in
the middle of a write. Each report tells of the drops since the one before
(`OutputAudit.Sound.report`), so together they tell of every drop once.
-/

namespace MetricAgent

namespace OutputStats

/-- The counts of an output that are exported, under their names. -/
def counters (s : OutputStats) : List (String × Nat) :=
  [("metrics_added", s.added), ("metrics_filtered", s.filtered), ("metrics_dropped", s.dropped),
    ("metrics_written", s.written), ("write_errors", s.errors)]

structure ExportedBy (s : OutputStats) (t : Telemetry) : Prop where
  sorted : t.Sorted
  counters : ∀ c ∈ s.counters, t.Shows .counter c.1 c.2
  bufferSize : t.Shows .gauge "buffer_size" s.bufferSize

variable {s s' : OutputStats} {t : Telemetry}

theorem exportedBy_make (s : OutputSettings) (maxBatch : Option Nat) :
    (Output.make s maxBatch).stats.ExportedBy (Output.make s maxBatch).telemetry := by
  have hs := Telemetry.sorted_make "output" s.name s.id
  refine ⟨hs.set _ _, ?_, (Telemetry.shows_make _ _ _ _ _).set_of_ne (by decide) _⟩
  have hzero : ∀ c ∈ (Output.make s maxBatch).stats.counters, c.1 ≠ "buffer_limit" ∧ c.2 = 0 := by
    simp [counters, Output.make]
  intro c hc
  obtain ⟨hne, hzero⟩ := hzero c hc
  rw [hzero]
  exact (Telemetry.shows_make _ _ _ _ _).set_of_ne hne _

/-- One of the counters goes up. -/
theorem ExportedBy.count (h : s.ExportedBy t) {name : String} {k : Nat}
    (hname : name ≠ "buffer_size") (hsize : s'.bufferSize = s.bufferSize)
    (hcounters : s'.counters = s.counters.map fun c => if c.1 = name then (c.1, c.2 + k) else c) :
    s'.ExportedBy (t.count name k) := by
  refine ⟨h.sorted.count name k, ?_, ?_⟩
  · rw [hcounters]
    intro c hc
    obtain ⟨b, hb, rfl⟩ := List.mem_map.1 hc
    have hshows := h.counters b hb
    split
    · next heq => exact heq ▸ hshows.count h.sorted k
    · next hne => exact hshows.count_of_ne hne k
  · rw [hsize]
    exact h.bufferSize.count_of_ne hname.symm k

theorem ExportedBy.setBufferSize (h : s.ExportedBy t) (n : Nat) :
    ({ s with bufferSize := n } : OutputStats).ExportedBy (t.set "buffer_size" n) := by
  refine ⟨h.sorted.set _ n, fun c hc => ?_, Telemetry.shows_set h.sorted _ n⟩
  have hne : ∀ c ∈ s.counters, c.1 ≠ "buffer_size" := by simp [OutputStats.counters]
  exact (h.counters c hc).set_of_ne (hne c hc) n

end OutputStats

namespace Output

variable {o : Output}

/-- A buffer is taken in that has dropped no fewer entries. -/
theorem exportedBy_withBuffer (h : o.stats.ExportedBy o.telemetry) {buffer : Buffer Metric}
    (hdropped : o.stats.dropped = o.buffer.dropped) (hle : o.buffer.dropped ≤ buffer.dropped) :
    (o.withBuffer buffer).stats.ExportedBy (o.withBuffer buffer).telemetry := by
  refine OutputStats.ExportedBy.setBufferSize (s := { o.stats with
    dropped := max o.stats.dropped buffer.dropped }) ?_ buffer.size
  have hmax : max o.stats.dropped buffer.dropped =
      o.stats.dropped + (buffer.dropped - o.buffer.dropped) := by omega
  rw [hmax]
  split
  · exact h.count (by decide) rfl (by simp [OutputStats.counters])
  · next hnone =>
    rw [Nat.eq_zero_of_not_pos hnone]
    exact h

end Output

namespace OutputHistory

variable {h : OutputHistory}

/-- What is exported goes along with every move. -/
theorem exportedBy_move (hc : h.Counted) (he : h.output.stats.ExportedBy h.output.telemetry)
    (m : OutputMove) : (h.move m).output.stats.ExportedBy (h.move m).output.telemetry := by
  cases m with
  | add m =>
      simp only [move, Output.add]
      split
      · exact he.count (by decide) rfl (by simp [OutputStats.counters])
      · next n _ =>
        have hle := (Buffer.accounts_add h.output.buffer (h.output.rename.apply n)).le_dropped
        have hw := Output.exportedBy_withBuffer he hc.dropped hle
        exact hw.count (by decide) rfl (by simp [OutputStats.counters])
  | beginWrite n =>
      simp only [move]
      split
      · exact he
      · exact he
  | endWrite succeeded =>
      simp only [move]
      split
      · next batch _ =>
        cases succeeded with
        | true =>
            have hle : h.output.buffer.dropped ≤ (h.output.buffer.accept batch).dropped :=
              Nat.le_of_eq (Buffer.dropped_accept _ _).symm
            have hw := Output.exportedBy_withBuffer he hc.dropped hle
            exact hw.count (by decide) rfl (by simp [OutputStats.counters, Output.endWrite])
        | false =>
            have hle := (Buffer.accounts_reject h.output.buffer batch).le_dropped
            have hw := Output.exportedBy_withBuffer he hc.dropped hle
            exact hw.count (by decide) rfl (by simp [OutputStats.counters, Output.endWrite])
      · exact he

/-- No move reports drops or takes one back. -/
theorem drops_move (h : OutputHistory) (m : OutputMove) :
    (h.move m).output.reportedDrops = h.output.reportedDrops ∧
      h.output.stats.dropped ≤ (h.move m).output.stats.dropped := by
  cases m with
  | add m =>
      simp only [move, Output.add]
      split
      · exact ⟨rfl, Nat.le_refl _⟩
      · exact ⟨rfl, Nat.le_max_left _ _⟩
  | beginWrite n =>
      simp only [move]
      split <;> exact ⟨rfl, Nat.le_refl _⟩
  | endWrite succeeded =>
      simp only [move]
      split
      · cases succeeded <;> exact ⟨rfl, Nat.le_max_left _ _⟩
      · exact ⟨rfl, Nat.le_refl _⟩

end OutputHistory

/-- Something that is done to an output, or a report of its drops. -/
inductive OrReport (α : Type) where
  | act (a : α)
  | report

/-- A history of an output, and what has been reported in it. -/
structure OutputAudit where
  history : OutputHistory
  /-- Of how many drops each report told, and how many there had been by then. -/
  reports : List (Nat × Nat)

namespace OutputAudit

def start (s : OutputSettings) (maxBatch : Option Nat) : OutputAudit := ⟨.start s maxBatch, []⟩

def report (r : OutputAudit) : OutputAudit where
  history := { r.history with output := r.history.output.reportOverflow.1 }
  reports := r.reports ++ [(r.history.output.reportOverflow.2, r.history.output.stats.dropped)]

section Run

variable {α : Type} (act : OutputHistory → α → OutputHistory)

def next (r : OutputAudit) : OrReport α → OutputAudit
  | .act a => { r with history := act r.history a }
  | .report => r.report

def run (r : OutputAudit) (actions : List (OrReport α)) : OutputAudit := actions.foldl (next act) r

theorem run_append (r : OutputAudit) (as bs : List (OrReport α)) :
    r.run act (as ++ bs) = (r.run act as).run act bs :=
  List.foldl_append

end Run

theorem run_map_move (r : OutputAudit) (ms : List OutputMove) :
    r.run OutputHistory.move (ms.map .act) = { r with history := r.history.moves ms } := by
  induction ms generalizing r with
  | nil => rfl
  | cons m ms ih => exact ih _

/-- Calls are made of moves, and no report is a part of one. -/
theorem exists_moves_run {r : OutputAudit} (hw : r.history.writing = none)
    (calls : List (OrReport OutputCall)) :
    (r.run OutputHistory.call calls).history.writing = none ∧
      ∃ steps, r.run OutputHistory.call calls = r.run OutputHistory.move steps := by
  induction calls generalizing r with
  | nil => exact ⟨hw, [], rfl⟩
  | cons c calls ih =>
      cases c with
      | act c =>
          obtain ⟨hidle, ms, hms⟩ := OutputHistory.exists_moves_call hw c
          obtain ⟨hidle', steps, hsteps⟩ := ih (r := { r with history := r.history.call c }) hidle
          refine ⟨hidle', ms.map .act ++ steps, ?_⟩
          rw [run_append, run_map_move, ← hms]
          exact hsteps
      | report =>
          obtain ⟨hidle', steps, hsteps⟩ := ih (r := r.report) hw
          exact ⟨hidle', .report :: steps, hsteps⟩

/-- The numbers of which reports told add up to the drops at the last one. -/
def AddsUp (reports : List (Nat × Nat)) : Prop :=
  (reports.map Prod.fst).sum = (reports.getLast?.map Prod.snd).getD 0

structure Sound (r : OutputAudit) : Prop where
  counted : r.history.Counted
  exported : r.history.output.stats.ExportedBy r.history.output.telemetry
  addsUp : ∀ earlier, earlier <+: r.reports → AddsUp earlier
  reported : (r.reports.getLast?.map Prod.snd).getD 0 = r.history.output.reportedDrops
  reported_le : r.history.output.reportedDrops ≤ r.history.output.stats.dropped

theorem sound_start (s : OutputSettings) (maxBatch : Option Nat) : (start s maxBatch).Sound where
  counted := OutputHistory.counted_start s maxBatch
  exported := OutputStats.exportedBy_make s maxBatch
  addsUp earlier h := by
    rw [List.prefix_nil.1 h]
    rfl
  reported := rfl
  reported_le := Nat.le_refl _

variable {r : OutputAudit}

theorem Sound.move (hs : r.Sound) (m : OutputMove) :
    (r.next OutputHistory.move (.act m)).Sound := by
  obtain ⟨hreported, hdropped⟩ := r.history.drops_move m
  refine ⟨hs.counted.move m, OutputHistory.exportedBy_move hs.counted hs.exported m, hs.addsUp,
    hs.reported.trans hreported.symm, ?_⟩
  exact hreported ▸ Nat.le_trans hs.reported_le hdropped

/-- A report tells of the drops since the one before, so the sum of all is what
had been dropped by then. -/
theorem Sound.report (hs : r.Sound) : r.report.Sound := by
  have hsum : (r.reports.map Prod.fst).sum = r.history.output.reportedDrops :=
    (hs.addsUp _ (List.prefix_refl _)).trans hs.reported
  have hle := hs.reported_le
  have hlast : (r.report.reports.getLast?.map Prod.snd).getD 0 = r.history.output.stats.dropped := by
    simp [OutputAudit.report]
  refine ⟨⟨hs.counted.added, hs.counted.written, hs.counted.dropped, hs.counted.bufferSize,
    hs.counted.bufferLimit⟩, hs.exported, ?_, hlast, Nat.le_refl _⟩
  intro earlier hprefix
  rcases List.prefix_concat_iff.1 hprefix with rfl | hbefore
  · refine Eq.trans ?_ hlast.symm
    simp only [List.map_append, List.map_cons, List.map_nil, List.sum_append, List.sum_cons,
      List.sum_nil, Output.reportOverflow, hsum]
    omega
  · exact hs.addsUp earlier hbefore

theorem Sound.run (hs : r.Sound) (steps : List (OrReport OutputMove)) :
    (r.run OutputHistory.move steps).Sound := by
  induction steps generalizing r with
  | nil => exact hs
  | cons step steps ih =>
      cases step with
      | act m => exact ih (hs.move m)
      | report => exact ih hs.report

/-- After any calls and reports, and at any point of a further call, the
exported counters and the gauge show the counts, the size is that of the buffer,
and the drops are those of the buffer. The reports add up to the drops at the
last of them, and so do the first ones, however many: no drop is told twice. -/
theorem exports_and_reports_agree (s : OutputSettings) (maxBatch : Option Nat)
    (calls : List (OrReport OutputCall)) (steps : List (OrReport OutputMove)) :
    let done := (start s maxBatch).run OutputHistory.call calls
    let r := done.run OutputHistory.move steps
    let o := r.history.output
    done.history.writing = none ∧
      ((∀ c ∈ o.stats.counters, o.telemetry.Shows .counter c.1 c.2) ∧
        o.telemetry.Shows .gauge "buffer_size" o.stats.bufferSize) ∧
      o.stats.bufferSize = o.buffer.size ∧ o.stats.dropped = o.buffer.dropped ∧
      (∀ earlier, earlier <+: r.reports → AddsUp earlier) ∧
      ∀ last ∈ r.reports.getLast?, last.2 ≤ o.stats.dropped := by
  intro done r o
  obtain ⟨hidle, before, hbefore⟩ := exists_moves_run (r := start s maxBatch) rfl calls
  have hs : r.Sound := by
    have hrun : r = (start s maxBatch).run OutputHistory.move (before ++ steps) := by
      rw [run_append, ← hbefore]
    exact hrun ▸ (sound_start s maxBatch).run _
  refine ⟨hidle, ⟨hs.exported.counters, hs.exported.bufferSize⟩, hs.counted.bufferSize,
    hs.counted.dropped, hs.addsUp, fun last hlast => ?_⟩
  have hreported := hs.reported
  rw [Option.mem_def.1 hlast] at hreported
  exact Nat.le_trans (Nat.le_of_eq hreported) hs.reported_le

/-- A metric is dropped as another one comes in. Then a batch comes back to a
buffer that has filled up, and a second one is dropped. A report in the middle of
the next write tells of none. -/
theorem exports_and_reports_agree_refused :
    let reading (name : String) : Metric := ⟨name, [], [("value", .int 1)], .epoch, .untyped⟩
    let calls : List (OrReport OutputCall) := [.act (.add (reading "cpu")),
      .act (.add (reading "disk")), .act (.add (reading "swap")), .report,
      .act (.writeBatch [⟨[reading "load"], some "refused"⟩]), .report]
    let r := ((start ⟨"file", none, 1, 2, ⟨"", "", ""⟩, .empty⟩ none).run OutputHistory.call
      calls).run OutputHistory.move [.act (.beginWrite 1), .report]
    r.history.writing.isSome ∧ r.reports = [(1, 1), (1, 2), (0, 2)] ∧
      r.history.output.telemetry.Shows .counter "metrics_dropped" 2 ∧
      r.history.output.telemetry.Shows .gauge "buffer_size" r.history.output.buffer.size ∧
      AddsUp [(1, 1), (1, 2)] := by
  intro reading calls r
  obtain ⟨-, ⟨hcounters, hgauge⟩, hsize, -, haddsUp, -⟩ := exports_and_reports_agree
    ⟨"file", none, 1, 2, ⟨"", "", ""⟩, .empty⟩ none calls [.act (.beginWrite 1), .report]
  have hreports : r.reports = [(1, 1), (1, 2), (0, 2)] := by decide +kernel
  have hdropped : r.history.output.stats.dropped = 2 := by decide +kernel
  refine ⟨by decide +kernel, hreports, ?_, hsize ▸ hgauge, haddsUp _ ?_⟩
  · exact hdropped ▸ hcounters ("metrics_dropped", r.history.output.stats.dropped)
      (by simp [OutputStats.counters, r])
  · exact hreports ▸ List.prefix_append [(1, 1), (1, 2)] [(0, 2)]

end OutputAudit

end MetricAgent
