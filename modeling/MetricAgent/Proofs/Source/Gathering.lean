import MetricAgent.Proofs.Source.Calls
import MetricAgent.Proofs.Telemetry

/-!
# Gathers add up

A source may hand clones of its accumulator to workers of its own, which go on while
no gather is running. So what it does is one sequence of calls, of failures and of
ends of gathers (`GatherEvent`), and a gather is such a sequence by itself
(`Gathering.run_gather`). Over a whole sequence nothing is sent, recorded or counted
but what becomes of the calls, and every error is counted in the gather that is the
first to end after it (`Gathering.accounts_run`).
-/

namespace MetricAgent

open SortedPairs (Sorted)

/-! ### Calls and gathers -/

/-- What happens to the accumulator of a source and to its clones. -/
inductive GatherEvent where
  /-- A call, through a clone whose precision may have been set. The time is that of
  a measurement without one. -/
  | call (precision : Option Duration) (now : Timestamp) (c : Call)
  | failed (text : String)
  | ended
  | received

namespace GatherEvent

def isEnd : GatherEvent → Bool
  | ended => true
  | _ => false

def Sound : GatherEvent → Prop
  | call _ _ c => c.Tidy
  | _ => True

end GatherEvent

/-- What happens during one gather in which all calls are the source's own. -/
def Gather.events (work : Gather) (clock now : Timestamp) : List GatherEvent :=
  (work.calls clock).map (.call none now) ++ work.failure.toList.map .failed ++ [.ended]

/-- A gatherer, with what has been received of it and the errors of all gathers that
have ended. -/
structure Gathering where
  gatherer : Gatherer
  received : List Metric
  reports : List (List String)

def Telemetry.countGathered (t : Telemetry) (n : Nat) : Telemetry :=
  if 0 < n then t.count "metrics_gathered" n else t

namespace Gathering

def start (s : GatherSettings) : Gathering := ⟨Gatherer.make s, [], []⟩

def step (x : Gathering) : GatherEvent → Gathering
  | .call precision now c =>
    let g := x.gatherer
    let a := g.accumulator.call ((precision.map Precision.bounded).getD g.precision) now c
    { x with gatherer := { g with
        accumulator := a
        telemetry := g.telemetry.countGathered (a.made - g.accumulator.made) } }
  | .failed text =>
    { x with gatherer :=
      { x.gatherer with accumulator := x.gatherer.accumulator.addError text } }
  | .ended =>
    let g := x.gatherer
    let (a, errors) := g.accumulator.takeErrors
    { x with
      gatherer := { g with
        accumulator := a
        gathers := g.gathers + 1
        errors := g.errors + errors.length
        telemetry := (g.telemetry.count "gathers" 1).count "gather_errors" errors.length }
      reports := x.reports ++ [errors] }
  | .received =>
    let (a, ms) := x.gatherer.accumulator.receive
    { x with
      gatherer := { x.gatherer with accumulator := a }
      received := x.received ++ ms }

def run (x : Gathering) (events : List GatherEvent) : Gathering := events.foldl step x

end Gathering

/-! ### What becomes of events -/

namespace GatherSettings

variable (s : GatherSettings)

def outcome? : GatherEvent → Option CallOutcome
  | .call precision now c => some (s.callOutcome precision now c)
  | .failed text => some (.recorded text)
  | .ended => none
  | .received => none

def sentBy (events : List GatherEvent) : List Metric :=
  events.filterMap fun e => (s.outcome? e).bind CallOutcome.metric?

def errorsOf (events : List GatherEvent) : List String :=
  events.filterMap fun e => (s.outcome? e).bind CallOutcome.error?

end GatherSettings

/-! ### One event -/

namespace Telemetry

variable {t : Telemetry} {name : String} {n : Nat}

theorem Sorted.countGathered (h : t.Sorted) (k : Nat) : (t.countGathered k).Sorted := by
  unfold Telemetry.countGathered
  split
  · exact h.count _ k
  · exact h

theorem Shows.countGathered (h : t.Shows .counter "metrics_gathered" n) (hs : t.Sorted) (k : Nat) :
    (t.countGathered k).Shows .counter "metrics_gathered" (n + k) := by
  unfold Telemetry.countGathered
  split
  · exact h.count hs k
  · next hk =>
    obtain rfl : k = 0 := by omega
    exact h

theorem Shows.countGathered_of_ne (h : t.Shows .counter name n) (hne : name ≠ "metrics_gathered")
    (k : Nat) : (t.countGathered k).Shows .counter name n := by
  unfold Telemetry.countGathered
  split
  · exact h.count_of_ne hne k
  · exact h

end Telemetry

namespace Gathering

variable {s : GatherSettings} {x : Gathering} {events : List GatherEvent} {e : GatherEvent}
  {o : CallOutcome}

/-- What no event changes. -/
structure Bound (s : GatherSettings) (x : Gathering) : Prop where
  maker : x.gatherer.accumulator.maker = s.maker
  isOpen : x.gatherer.accumulator.isOpen = true
  precision : x.gatherer.precision = s.effectivePrecision
  sorted : x.gatherer.telemetry.Sorted

/-- What has been sent, recorded and counted after some events. -/
structure Accounts (s : GatherSettings) (events : List GatherEvent) (x : Gathering) : Prop where
  sent : x.received ++ x.gatherer.accumulator.sent = s.sentBy events
  /-- The errors that come before the end of a gather are those of that gather, and
  behind the last end are those that have not been counted yet. -/
  reports : (events.splitOnP GatherEvent.isEnd).map s.errorsOf =
    x.reports ++ [x.gatherer.accumulator.errors]
  stats : x.gatherer.stats =
    ⟨x.reports.length, (s.sentBy events).length, x.reports.flatten.length⟩
  gathers : x.gatherer.telemetry.Shows .counter "gathers" x.reports.length
  metrics : x.gatherer.telemetry.Shows .counter "metrics_gathered" (s.sentBy events).length
  errors : x.gatherer.telemetry.Shows .counter "gather_errors" x.reports.flatten.length

def after (x : Gathering) (o : CallOutcome) : Gathering :=
  { x with gatherer := { x.gatherer with
      accumulator := x.gatherer.accumulator.after o
      telemetry := x.gatherer.telemetry.countGathered o.metric?.toList.length } }

/-- A call and a failure do what becomes of them. -/
theorem step_eq_after (hb : Bound s x) (he : e.Sound) (ho : s.outcome? e = some o) :
    x.step e = x.after o := by
  cases e with
  | call precision now c =>
      obtain rfl := Option.some.inj ho
      have hcall := Accumulator.call_eq_after hb.maker hb.isOpen he precision now
      rw [← hb.precision] at hcall
      simp only [step, hcall, Accumulator.made_after, Nat.add_sub_cancel_left]
      rfl
  | failed text =>
      obtain rfl := Option.some.inj ho
      rfl
  | ended => cases ho
  | received => cases ho

theorem Bound.after (hb : Bound s x) (o : CallOutcome) : Bound s (x.after o) := by
  refine ⟨?_, ?_, hb.precision, ?_⟩
  · cases o <;> exact hb.maker
  · cases o <;> exact hb.isOpen
  · exact hb.sorted.countGathered _

theorem Bound.step (hb : Bound s x) (he : e.Sound) : Bound s (x.step e) := by
  cases ho : s.outcome? e with
  | some o =>
      rw [step_eq_after hb he ho]
      exact hb.after o
  | none =>
      cases e with
      | call precision now c => cases ho
      | failed text => cases ho
      | ended => exact ⟨hb.maker, hb.isOpen, hb.precision, (hb.sorted.count _ _).count _ _⟩
      | received => exact ⟨hb.maker, hb.isOpen, hb.precision, hb.sorted⟩

theorem sentBy_concat (s : GatherSettings) (events : List GatherEvent) (e : GatherEvent) :
    s.sentBy (events ++ [e]) =
      s.sentBy events ++ ((s.outcome? e).bind CallOutcome.metric?).toList :=
  filterMap_concat _ events e

theorem errorsOf_concat (s : GatherSettings) (events : List GatherEvent) (e : GatherEvent) :
    s.errorsOf (events ++ [e]) =
      s.errorsOf events ++ ((s.outcome? e).bind CallOutcome.error?).toList :=
  filterMap_concat _ events e

/-- As long as no gather ends, errors are added to those that are yet to be counted. -/
theorem reports_concat (hend : e.isEnd = false) {reports : List (List String)}
    {errors : List String}
    (h : (events.splitOnP GatherEvent.isEnd).map s.errorsOf = reports ++ [errors]) :
    ((events ++ [e]).splitOnP GatherEvent.isEnd).map s.errorsOf =
      reports ++ [errors ++ ((s.outcome? e).bind CallOutcome.error?).toList] := by
  obtain ⟨parts, last, hevents, hmore⟩ := exists_splitOnP_concat events hend
  rw [hevents, List.map_append, List.map_singleton] at h
  obtain ⟨hparts, herrors⟩ := List.append_inj' h rfl
  rw [hmore, List.map_append, List.map_singleton, errorsOf_concat, hparts,
    List.singleton_inj.1 herrors]

theorem isEnd_of_outcome? (ho : s.outcome? e = some o) : e.isEnd = false := by
  cases e with
  | ended => cases ho
  | call precision now c => rfl
  | failed text => rfl
  | received => rfl

theorem Accounts.after (hb : Bound s x) (h : Accounts s events x) (ho : s.outcome? e = some o) :
    Accounts s (events ++ [e]) (x.after o) := by
  have hsent : s.sentBy (events ++ [e]) = s.sentBy events ++ o.metric?.toList := by
    rw [sentBy_concat, ho]
    rfl
  have hstats : (x.after o).gatherer.stats = { x.gatherer.stats with
      metrics := x.gatherer.stats.metrics + o.metric?.toList.length } :=
    congrArg (GatherStats.mk _ · _) (x.gatherer.accumulator.made_after o)
  constructor
  · rw [hsent, ← h.sent, List.append_assoc]
    exact congrArg (x.received ++ ·) (x.gatherer.accumulator.sent_after o)
  · rw [reports_concat (isEnd_of_outcome? ho) h.reports, ho, Option.bind_some,
      ← Accumulator.errors_after]
    rfl
  · rw [hstats, h.stats, hsent, List.length_append]
    rfl
  · exact Telemetry.Shows.countGathered_of_ne h.gathers (by decide) _
  · rw [hsent, List.length_append]
    exact Telemetry.Shows.countGathered h.metrics hb.sorted _
  · exact Telemetry.Shows.countGathered_of_ne h.errors (by decide) _

theorem Accounts.ended (hb : Bound s x) (h : Accounts s events x) :
    Accounts s (events ++ [.ended]) (x.step .ended) := by
  have hsent : s.sentBy (events ++ [.ended]) = s.sentBy events := by
    rw [sentBy_concat]
    exact List.append_nil _
  have hreports : ((events ++ [GatherEvent.ended]).splitOnP GatherEvent.isEnd).map s.errorsOf =
      x.reports ++ [x.gatherer.accumulator.errors] ++ [[]] := by
    rw [List.splitOnP_append_cons events [] rfl, List.map_append, h.reports]
    rfl
  have hlength : (x.step .ended).reports.length = x.reports.length + 1 := List.length_append
  have hsum : (x.step .ended).reports.flatten.length =
      x.reports.flatten.length + x.gatherer.accumulator.errors.length := by
    simp [step, Accumulator.takeErrors]
  have hstats : (x.step .ended).gatherer.stats = { x.gatherer.stats with
      gathers := x.gatherer.stats.gathers + 1
      errors := x.gatherer.stats.errors + x.gatherer.accumulator.errors.length } := rfl
  constructor
  · rw [hsent]
    exact h.sent
  · exact hreports
  · rw [hstats, h.stats, hsent, hlength, hsum]
  · rw [hlength]
    exact (h.gathers.count hb.sorted 1).count_of_ne (by decide) _
  · rw [hsent]
    exact (h.metrics.count_of_ne (by decide) 1).count_of_ne (by decide) _
  · rw [hsum]
    exact (h.errors.count_of_ne (by decide) 1).count (hb.sorted.count _ _) _

theorem Accounts.received (h : Accounts s events x) :
    Accounts s (events ++ [.received]) (x.step .received) := by
  have hsent : s.sentBy (events ++ [.received]) = s.sentBy events := by
    rw [sentBy_concat]
    exact List.append_nil _
  refine ⟨?_, ?_, ?_, h.gathers, ?_, h.errors⟩
  · rw [hsent, ← h.sent]
    exact List.append_nil _
  · rw [reports_concat rfl h.reports]
    exact congrArg (fun errors => x.reports ++ [errors]) (List.append_nil _)
  · rw [hsent]
    exact h.stats
  · rw [hsent]
    exact h.metrics

theorem Accounts.step (hb : Bound s x) (h : Accounts s events x) (he : e.Sound) :
    Accounts s (events ++ [e]) (x.step e) := by
  cases ho : s.outcome? e with
  | some o =>
      rw [step_eq_after hb he ho]
      exact h.after hb ho
  | none =>
      cases e with
      | call precision now c => cases ho
      | failed text => cases ho
      | ended => exact h.ended hb
      | received => exact h.received

theorem bound_start (s : GatherSettings) : Bound s (start s) :=
  ⟨rfl, rfl, rfl, Telemetry.sorted_make _ _ _⟩

theorem accounts_start (s : GatherSettings) : Accounts s [] (start s) where
  sent := rfl
  reports := rfl
  stats := rfl
  gathers := Telemetry.shows_make _ _ _ _ _
  metrics := Telemetry.shows_make _ _ _ _ _
  errors := Telemetry.shows_make _ _ _ _ _

theorem accounts_of_sound (s : GatherSettings) (h : ∀ e ∈ events, e.Sound) :
    Bound s ((start s).run events) ∧ Accounts s events ((start s).run events) := by
  induction events using List.reverseRecOn with
  | nil => exact ⟨bound_start s, accounts_start s⟩
  | append_singleton events e ih =>
      obtain ⟨hevents, he⟩ := List.forall_mem_append.1 h
      obtain ⟨hb, ha⟩ := ih hevents
      have hsound := List.forall_mem_singleton.1 he
      rw [run, List.foldl_append]
      exact ⟨hb.step hsound, ha.step hb hsound⟩

end Gathering

/-! ### A whole gather -/

namespace Telemetry

theorem countGathered_countGathered (t : Telemetry) (k n : Nat) :
    (t.countGathered k).countGathered n = t.countGathered (k + n) := by
  unfold countGathered
  rcases Nat.eq_zero_or_pos k with rfl | hk
  · simp
  · rcases Nat.eq_zero_or_pos n with rfl | hn
    · simp
    · rw [if_pos hk, if_pos hn, if_pos (Nat.add_pos_left hk n), count_count]

end Telemetry

namespace Gathering

theorem run_calls (g : Gatherer) (received : List Metric) (reports : List (List String))
    (now : Timestamp) (calls : List Call) :
    run ⟨g, received, reports⟩ (calls.map (.call none now)) =
      ⟨{ g with
          accumulator := g.accumulator.callAll g.precision now calls
          telemetry := g.telemetry.countGathered
            ((g.accumulator.callAll g.precision now calls).made - g.accumulator.made) },
        received, reports⟩ := by
  induction calls generalizing g with
  | nil =>
      rw [Accumulator.callAll_nil, Nat.sub_self]
      rfl
  | cons c calls ih =>
      refine (ih _).trans ?_
      have hfirst := g.accumulator.made_le_call g.precision now c
      have hrest := (g.accumulator.call g.precision now c).made_le_callAll g.precision now calls
      have hmade : (g.accumulator.call g.precision now c).made - g.accumulator.made +
          (((g.accumulator.call g.precision now c).callAll g.precision now calls).made -
            (g.accumulator.call g.precision now c).made) =
          ((g.accumulator.call g.precision now c).callAll g.precision now calls).made -
            g.accumulator.made := by omega
      rw [Accumulator.callAll_cons, ← hmade, ← Telemetry.countGathered_countGathered]
      rfl

/-- A gather is one sequence of events. -/
theorem run_gather (g : Gatherer) (received : List Metric) (reports : List (List String))
    (work : Gather) (clock now : Timestamp) : ∃ errors,
      run ⟨g, received, reports⟩ (work.events clock now) =
        ⟨(g.gather work clock now).1, received, reports ++ [errors]⟩ ∧
      (g.gather work clock now).2 = errors.length := by
  have hrun : run ⟨g, received, reports⟩ (work.events clock now) =
      (run (run ⟨g, received, reports⟩ ((work.calls clock).map (.call none now)))
        (work.failure.toList.map .failed)).step .ended := by
    simp only [run, Gather.events, List.foldl_append, List.foldl_cons, List.foldl_nil]
  rw [hrun, run_calls]
  unfold Gatherer.gather
  cases work.failure with
  | none => exact ⟨_, rfl, rfl⟩
  | some text => exact ⟨_, rfl, rfl⟩

/-- What a source does, through whatever clones, is accounted for: what is sent are the
metrics that the filter lets through, dressed, in the order of the calls, and every
error is counted in the gather that is the first to end after it. Measurements are
stamped with the precision in effect, which is between a nanosecond and a second. -/
theorem accounts_run (s : GatherSettings) (h : ∀ e ∈ events, e.Sound) :
    Accounts s events ((start s).run events) ∧
      (∀ precision, 1 ≤ s.precisionIn precision ∧ s.precisionIn precision ≤ 1000000000) ∧
      (∀ (t : Timestamp) precision, (t.floor (s.precisionIn precision)).IsFloor t
        (s.precisionIn precision)) ∧
      (∀ m : Metric, Sorted m.tags → ∀ key, (s.dressed m).tag? key =
        ((m.tag? key).or (s.tags.lookup key)).or (s.globalTags.lookup key)) ∧
      ∀ (x : Gathering) work clock now, ∃ errors,
        x.run (work.events clock now) =
          ⟨(x.gatherer.gather work clock now).1, x.received, x.reports ++ [errors]⟩ ∧
        (x.gatherer.gather work clock now).2 = errors.length := by
  refine ⟨(accounts_of_sound s h).2, s.precisionIn_bounds, fun t precision => ?_,
    fun m hm key => GatherSettings.tag?_dressed hm key, fun x => run_gather _ _ _⟩
  exact t.isFloor_floor (s.precisionIn_bounds precision).1

/-- A source that lets one name through and has tags of its own. -/
def hostSettings : GatherSettings where
  name := "constant"
  id := none
  interval := Duration.ofMillis 5
  precision := none
  rename := ⟨"", "a_", ""⟩
  tags := [("host", "x")]
  globalTags := [("host", "y"), ("dc", "e")]
  filter := { Filter.empty with namePass := some fun name => name == "a_cpu" }

/-- Two gathers: a clone measures something without a name in the first, and before
the second fails a metric is handed over that is not let through. -/
def hostEvents : List GatherEvent := [
  .call none .epoch
    (.measure "cpu" [("v", .int 1)] [("host", "h")] (some (.saturate 1234567)) .gauge),
  .call (some (Duration.ofSeconds 2)) .epoch (.measure "" [("v", .int 1)] [] none .untyped),
  .ended,
  .call none .epoch (.metric ⟨"mem", [], [("v", .int 2)], .epoch, .untyped⟩),
  .failed "late",
  .ended]

theorem accounts_run_host :
    ((start hostSettings).run hostEvents).received ++
        ((start hostSettings).run hostEvents).gatherer.accumulator.sent =
      [⟨"a_cpu", [("dc", "e"), ("host", "h")], [("v", .int 1)], .saturate 1000000, .gauge⟩] ∧
    ((start hostSettings).run hostEvents).reports ++
        [((start hostSettings).run hostEvents).gatherer.accumulator.errors] =
      [["metric name must not be empty"], ["late"], []] := by
  have hsound : ∀ e ∈ hostEvents, e.Sound := by
    simp [hostEvents, GatherEvent.Sound, Call.Tidy, SortedPairs.sorted_nil]
  have haccounts := (accounts_run hostSettings hsound).1
  exact ⟨haccounts.sent.trans (by decide +kernel), haccounts.reports.symm.trans (by decide +kernel)⟩

end Gathering

end MetricAgent
