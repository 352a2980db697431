import MetricAgent.Proofs.Aggregator.Merging

/-!
# The accounts of a stage

A stage makes calls of its aggregators: each metric that comes in is offered to
all of them, and a wake-up pushes those that are due. `Running.calls` lists the
calls that a history makes of one aggregator. They decide on its counts and on
what it gives out (`Running.selected_callAll`, `Running.pushed_callAll`), whatever
the others do.

What a stage sends on is listed with its sender (`AggregatorStage.sent`), so the
originals and the metrics of each aggregator can be told apart although all of
them go one way.
-/

namespace MetricAgent

def StageEvent.metric? : StageEvent → Option Metric
  | .metric m => some m
  | .timer | .stop => none

namespace Running

variable {α : Type}

def Call.metric? : Call → Option Metric
  | .add m => some m
  | .push _ => none

/-- What an event makes a stage ask of an aggregator. -/
def asked (a : Running α) (now : Timestamp) : StageEvent → List Call
  | .metric m => [.add m]
  | .timer => if AggregatorStage.isDue now a then [.push now] else []
  | .stop => [.push now]

variable [Aggregating α]

def calls (a : Running α) : List (Timestamp × StageEvent) → List Call
  | [] => []
  | (now, e) :: history => a.asked now e ++ (a.handle now e).calls history

def given (a : Running α) : Call → List Metric
  | .add _ => []
  | .push now => (AggregatorStage.push now a).2

def gives (a : Running α) : List Call → List Metric
  | [] => []
  | c :: cs => a.given c ++ (a.call c).gives cs

/-! ### The calls of a history -/

theorem callAll_append (a : Running α) (cs ds : List Call) :
    a.callAll (cs ++ ds) = (a.callAll cs).callAll ds :=
  List.foldl_append

theorem callAll_asked (a : Running α) (now : Timestamp) (e : StageEvent) :
    a.callAll (a.asked now e) = a.handle now e := by
  cases e with
  | metric m => rfl
  | timer =>
      unfold asked handle
      dsimp only
      split <;> rfl
  | stop => rfl

theorem callAll_calls (a : Running α) (history : List (Timestamp × StageEvent)) :
    a.callAll (a.calls history) = a.follow history := by
  induction history generalizing a with
  | nil => rfl
  | cons event history ih =>
      obtain ⟨now, e⟩ := event
      rw [calls, callAll_append, callAll_asked, ih, follow_cons]

theorem calls_append (a : Running α) (history more : List (Timestamp × StageEvent)) :
    a.calls (history ++ more) = a.calls history ++ (a.follow history).calls more := by
  induction history generalizing a with
  | nil => rfl
  | cons event history ih =>
      obtain ⟨now, e⟩ := event
      rw [List.cons_append, calls, calls, ih, follow_cons, List.append_assoc]

theorem gives_append (a : Running α) (cs ds : List Call) :
    a.gives (cs ++ ds) = a.gives cs ++ (a.callAll cs).gives ds := by
  induction cs generalizing a with
  | nil => rfl
  | cons c cs ih =>
      rw [List.cons_append, gives, gives, ih, List.append_assoc]
      rfl

omit [Aggregating α] in
theorem filterMap_metric?_asked (a : Running α) (now : Timestamp) (e : StageEvent) :
    (a.asked now e).filterMap Call.metric? = e.metric?.toList := by
  cases e with
  | metric m => rfl
  | timer =>
      unfold asked
      dsimp only
      split <;> rfl
  | stop => rfl

/-- Each metric is offered, once and as it came. -/
theorem filterMap_metric?_calls (a : Running α) (history : List (Timestamp × StageEvent)) :
    (a.calls history).filterMap Call.metric? = history.filterMap fun e => e.2.metric? := by
  induction history generalizing a with
  | nil => rfl
  | cons event history ih =>
      obtain ⟨now, e⟩ := event
      rw [calls, List.filterMap_append, filterMap_metric?_asked, ih, List.filterMap_cons]
      cases e.metric? <;> rfl

/-- Until the input closes, nothing is pushed that is not due. -/
theorem deadline_le_of_calls {a : Running α} {events : List (Timestamp × StageEvent)}
    (hopen : ∀ e ∈ events, e.2 ≠ .stop) {before after : List Call} {now : Timestamp}
    (hcalls : a.calls events = before ++ .push now :: after) :
    (a.callAll before).deadline ≤ now := by
  induction events generalizing a before with
  | nil => simp [calls] at hcalls
  | cons event events ih =>
      obtain ⟨t, e⟩ := event
      have hrest := fun e he => hopen e (List.mem_cons_of_mem _ he)
      cases e with
      | metric m =>
          -- The offer comes before any push, so `before` begins with it.
          obtain ⟨-, hfirst⟩ | ⟨before, rfl, htail⟩ := List.cons_eq_append_iff.1 hcalls
          · cases hfirst
          · exact ih (a := a.call (.add m)) hrest htail
      | timer =>
          simp only [calls, asked, handle] at hcalls
          split at hcalls
          · next hdue =>
            obtain ⟨rfl, hfirst⟩ | ⟨before, rfl, htail⟩ := List.cons_eq_append_iff.1 hcalls
            · cases hfirst
              exact of_decide_eq_true hdue
            · exact ih (a := a.call (.push t)) hrest htail
          · exact ih hrest hcalls
      | stop => exact absurd rfl (hopen _ List.mem_cons_self)

/-! ### What calls make of the counts -/

theorem filter_call (a : Running α) (c : Call) : (a.call c).filter = a.filter := by
  obtain ⟨g, w, stats, telemetry, hcall⟩ := a.exists_call_eq c
  rw [hcall]

/-- What an aggregator withholds does not change. -/
theorem withholds_and_filter_callAll (a : Running α) (cs : List Call) :
    (a.callAll cs).withholds = a.withholds ∧ (a.callAll cs).filter = a.filter := by
  obtain ⟨g, w, stats, telemetry, hcalls⟩ := a.exists_callAll_eq cs
  rw [hcalls]
  exact ⟨rfl, rfl⟩

/-- How many metrics have been selected, whatever became of them. -/
def selected (a : Running α) : Nat := a.stats.aggregated + a.stats.filtered + a.stats.dropped

omit [Aggregating α] in
theorem offer_eq_ignored_iff {a : Running α} {m : Metric} :
    a.offer m = .ignored ↔ a.filter.select m = false := by
  unfold offer
  dsimp only
  split
  · next hselect => simpa using hselect
  · next hselect =>
    have hselected : a.filter.select m ≠ false := by simpa using hselect
    refine iff_of_false ?_ hselected
    split
    · exact nofun
    · split <;> exact nofun

theorem snd_add (a : Running α) (m : Metric) :
    (a.add m).2 = (a.withholds && a.filter.select m) := by
  cases hselect : a.filter.select m with
  | false =>
      unfold add
      rw [offer_eq_ignored_iff.2 hselect, Bool.and_false]
  | true =>
      have hoffer : a.offer m ≠ .ignored := by
        rw [ne_eq, offer_eq_ignored_iff, hselect]
        exact Bool.noConfusion
      rw [Bool.and_true]
      unfold add
      split
      · exact absurd ‹_› hoffer
      all_goals rfl

/-- A metric that is selected is counted in one of three ways. -/
theorem selected_add (a : Running α) (m : Metric) :
    (a.add m).1.selected = a.selected + if a.filter.select m then 1 else 0 := by
  have hignored := offer_eq_ignored_iff (a := a) (m := m)
  unfold add selected
  split
  · next hoffer => simp [hignored.1 hoffer]
  all_goals
    next hoffer =>
    have hselect : a.filter.select m = true := by
      rw [hoffer] at hignored
      simpa using hignored
    rw [if_pos hselect]
    dsimp only
    omega

theorem selected_push (a : Running α) (now : Timestamp) :
    (AggregatorStage.push now a).1.selected = a.selected := by
  unfold AggregatorStage.push push?
  cases a.window.next? now <;> rfl

theorem pushed_add (a : Running α) (m : Metric) : (a.add m).1.stats.pushed = a.stats.pushed := by
  unfold add
  split <;> rfl

theorem pushed_push (a : Running α) (now : Timestamp) :
    (AggregatorStage.push now a).1.stats.pushed =
      a.stats.pushed + (AggregatorStage.push now a).2.length := by
  unfold AggregatorStage.push push?
  cases a.window.next? now with
  | none => rfl
  | some w => exact congrArg (a.stats.pushed + ·) (List.length_map a.finish).symm

/-- The counts grow by what is selected of what is offered. -/
theorem selected_callAll (a : Running α) (cs : List Call) :
    (a.callAll cs).selected =
      a.selected + (cs.filterMap Call.metric?).countP a.filter.select := by
  induction cs generalizing a with
  | nil => rfl
  | cons c cs ih =>
      have hnext := ih (a.call c)
      rw [a.filter_call c] at hnext
      refine hnext.trans ?_
      cases c with
      | add m =>
          rw [List.filterMap_cons, Call.metric?, List.countP_cons]
          change (a.add m).1.selected + _ = _
          rw [selected_add]
          omega
      | push now => exact congrArg (· + _) (a.selected_push now)

theorem pushed_callAll (a : Running α) (cs : List Call) :
    (a.callAll cs).stats.pushed = a.stats.pushed + (a.gives cs).length := by
  induction cs generalizing a with
  | nil => rfl
  | cons c cs ih =>
      have hcall : (a.call c).stats.pushed = a.stats.pushed + (a.given c).length := by
        cases c with
        | add m => exact a.pushed_add m
        | push now => exact a.pushed_push now
      rw [gives, List.length_append, ← Nat.add_assoc, ← hcall]
      exact ih (a.call c)

end Running

namespace AggregatorStage

variable {α : Type} [Aggregating α]

/-! ### What goes on, by its sender -/

def withholds (stage : List (Running α)) (m : Metric) : Bool :=
  stage.any fun a => a.withholds && a.filter.select m

/-- What goes on at an event of what comes in. -/
def originals (stage : List (Running α)) : StageEvent → List Metric
  | .metric m => if withholds stage m then [] else [m]
  | .timer | .stop => []

/-- What a stage sends on at an event, each metric with the place of the
aggregator that gives it out. An original has none. -/
def sentAt (stage : List (Running α)) (now : Timestamp) (e : StageEvent) :
    List (Option Nat × Metric) :=
  (originals stage e).map (none, ·) ++
    stage.zipIdx.flatMap fun a => (a.1.gives (a.1.asked now e)).map (some a.2, ·)

def sent (stage : List (Running α)) : List (Timestamp × StageEvent) → List (Option Nat × Metric)
  | [] => []
  | (now, e) :: history => sentAt stage now e ++ sent (step stage now e).1 history

def sentBy (who : Option Nat) (sent : List (Option Nat × Metric)) : List Metric :=
  sent.filterMap fun s => if s.1 = who then some s.2 else none

theorem snd_offerAll (m : Metric) (stage : List (Running α)) :
    (offerAll m stage).2 = withholds stage m := by
  induction stage with
  | nil => rfl
  | cons a rest ih =>
      unfold offerAll
      dsimp only
      rw [ih, a.snd_add m]
      rfl

theorem snd_pushWhere (now : Timestamp) (test : Running α → Bool) (stage : List (Running α)) :
    (pushWhere now test stage).2 =
      stage.flatMap fun a => if test a then (push now a).2 else [] := by
  induction stage with
  | nil => rfl
  | cons a rest ih =>
      simp only [pushWhere, List.flatMap_cons, ih]
      split <;> rfl

/-- What goes on is what came in, unless it is withheld, and what the
aggregators give out, one after the other. -/
theorem snd_step (stage : List (Running α)) (now : Timestamp) (e : StageEvent) :
    (step stage now e).2 =
      originals stage e ++ stage.flatMap fun a => a.gives (a.asked now e) := by
  cases e with
  | metric m =>
      have hnone : (stage.flatMap fun a => a.gives (a.asked now (.metric m))) = [] :=
        List.flatMap_eq_nil_iff.2 fun a _ => rfl
      rw [hnone, List.append_nil]
      simp only [originals, ← snd_offerAll]
      rfl
  | timer =>
      refine (snd_pushWhere now (isDue now) stage).trans ?_
      congr 1
      funext a
      unfold Running.asked
      dsimp only
      split
      · exact (List.append_nil _).symm
      · rfl
  | stop =>
      refine (snd_pushWhere now (fun _ => true) stage).trans ?_
      congr 1
      funext a
      exact (List.append_nil _).symm

theorem map_snd_sentAt (stage : List (Running α)) (now : Timestamp) (e : StageEvent) :
    (sentAt stage now e).map Prod.snd = (step stage now e).2 := by
  let gives (a : Running α) : List Metric := a.gives (a.asked now e)
  have hlabels : ∀ (sender : Option Nat) (ms : List Metric),
      (ms.map (sender, ·)).map Prod.snd = ms := fun sender ms => by
    rw [List.map_map]
    exact List.map_id ms
  have hplaces : (stage.zipIdx.flatMap fun a => gives a.1) = stage.flatMap gives := by
    rw [← List.flatMap_map Prod.fst gives stage.zipIdx, List.zipIdx_map_fst]
  rw [snd_step, sentAt, List.map_append, List.map_flatMap, hlabels]
  simp only [hlabels]
  exact congrArg _ hplaces

/-- The senders aside, this is what the stage sends on. -/
theorem map_snd_sent (stage : List (Running α)) (history : List (Timestamp × StageEvent)) :
    (sent stage history).map Prod.snd = (run stage history).2 := by
  induction history generalizing stage with
  | nil => rfl
  | cons event history ih =>
      obtain ⟨now, e⟩ := event
      rw [sent, List.map_append, map_snd_sentAt, ih]
      rfl

theorem sentBy_append (who : Option Nat) (sent more : List (Option Nat × Metric)) :
    sentBy who (sent ++ more) = sentBy who sent ++ sentBy who more :=
  List.filterMap_append

theorem sentBy_map_self (who : Option Nat) (ms : List Metric) :
    sentBy who (ms.map (who, ·)) = ms := by
  unfold sentBy
  rw [List.filterMap_map]
  simp

theorem sentBy_eq_nil {who : Option Nat} {sent : List (Option Nat × Metric)}
    (h : ∀ s ∈ sent, s.1 ≠ who) : sentBy who sent = [] :=
  List.filterMap_eq_nil_iff.2 fun s hs => if_neg (h s hs)

omit [Aggregating α] in
/-- What the aggregators send is kept apart by their places. -/
theorem sentBy_zipIdx (f : Running α → List Metric) {stage : List (Running α)} {n k : Nat}
    {a : Running α} (ha : stage[k]? = some a) :
    sentBy (some (n + k)) ((stage.zipIdx n).flatMap fun a => (f a.1).map (some a.2, ·)) = f a := by
  induction stage generalizing n k with
  | nil => cases ha
  | cons b rest ih =>
      rw [List.zipIdx_cons, List.flatMap_cons, sentBy_append]
      cases k with
      | zero =>
          -- Those behind the first have greater places.
          have hrest : sentBy (some (n + 0))
              ((rest.zipIdx (n + 1)).flatMap fun a => (f a.1).map (some a.2, ·)) = [] := by
            refine sentBy_eq_nil fun s hs => ?_
            obtain ⟨⟨c, i⟩, hc, hs⟩ := List.mem_flatMap.1 hs
            obtain ⟨m, -, rfl⟩ := List.mem_map.1 hs
            have hi := List.le_snd_of_mem_zipIdx hc
            simp only [ne_eq, Option.some.injEq]
            omega
          cases ha
          rw [hrest, List.append_nil]
          exact sentBy_map_self _ _
      | succ k =>
          have hfirst : sentBy (some (n + (k + 1))) ((f b).map (some n, ·)) = [] := by
            refine sentBy_eq_nil fun s hs => ?_
            obtain ⟨m, -, rfl⟩ := List.mem_map.1 hs
            simp
          rw [hfirst, List.nil_append, ← Nat.add_assoc, Nat.add_right_comm]
          exact ih ha

/-- At each event, an aggregator sends what it gives out. -/
theorem sentBy_sentAt {stage : List (Running α)} {k : Nat} {a : Running α}
    (ha : stage[k]? = some a) (now : Timestamp) (e : StageEvent) :
    sentBy (some k) (sentAt stage now e) = a.gives (a.asked now e) := by
  have horiginals : sentBy (some k) ((originals stage e).map (none, ·)) = [] := by
    refine sentBy_eq_nil fun s hs => ?_
    obtain ⟨m, -, rfl⟩ := List.mem_map.1 hs
    exact nofun
  have hgives := sentBy_zipIdx (fun a => a.gives (a.asked now e)) (n := 0) ha
  rw [Nat.zero_add] at hgives
  rw [sentAt, sentBy_append, horiginals, List.nil_append]
  exact hgives

theorem sentBy_none_sentAt (stage : List (Running α)) (now : Timestamp) (e : StageEvent) :
    sentBy none (sentAt stage now e) = originals stage e := by
  have hothers : sentBy none
      (stage.zipIdx.flatMap fun a => (a.1.gives (a.1.asked now e)).map (some a.2, ·)) = [] := by
    refine sentBy_eq_nil fun s hs => ?_
    obtain ⟨a, -, hs⟩ := List.mem_flatMap.1 hs
    obtain ⟨m, -, rfl⟩ := List.mem_map.1 hs
    exact nofun
  rw [sentAt, sentBy_append, hothers, List.append_nil]
  exact sentBy_map_self _ _

/-- Over a history, an aggregator sends what it gives out at its calls. -/
theorem sentBy_sent {stage : List (Running α)} {k : Nat} {a : Running α}
    (ha : stage[k]? = some a) (history : List (Timestamp × StageEvent)) :
    sentBy (some k) (sent stage history) = a.gives (a.calls history) := by
  induction history generalizing stage a with
  | nil => rfl
  | cons event history ih =>
      obtain ⟨now, e⟩ := event
      have hnext : (step stage now e).1[k]? = some (a.handle now e) := by
        rw [fst_step, List.getElem?_map, ha]
        rfl
      rw [sent, sentBy_append, sentBy_sentAt ha, ih hnext, Running.calls, Running.gives_append,
        Running.callAll_asked]

/-- No event changes what a stage withholds. -/
theorem withholds_step (stage : List (Running α)) (now : Timestamp) (e : StageEvent) :
    withholds (step stage now e).1 = withholds stage := by
  funext m
  rw [fst_step, withholds, List.any_map, withholds]
  congr 1
  funext a
  obtain ⟨hwithholds, hfilter⟩ := a.withholds_and_filter_callAll (a.asked now e)
  rw [Function.comp_apply, ← Running.callAll_asked, hwithholds, hfilter]

/-- The originals that go on are those that nobody withholds. -/
theorem sentBy_none_sent (stage : List (Running α)) (history : List (Timestamp × StageEvent)) :
    sentBy none (sent stage history) =
      (history.filterMap fun e => e.2.metric?).filter fun m => !withholds stage m := by
  induction history generalizing stage with
  | nil => rfl
  | cons event history ih =>
      obtain ⟨now, e⟩ := event
      rw [sent, sentBy_append, sentBy_none_sentAt, ih, withholds_step, List.filterMap_cons]
      cases e with
      | metric m =>
          simp only [originals, StageEvent.metric?, List.filter_cons]
          cases withholds stage m <;> rfl
      | _ => rfl

/-- Metrics and wake-ups come in any order, and the input may close at the end.
What goes on of the originals is, in order, what no aggregator both selects and
withholds. Each aggregator ends up as its calls leave it, and has sent what they
make it give out. In them, it is offered each metric once and as it came, and is
pushed only when it is due, and once more when the input closes. It has counted
each metric that it selects in one way, and each one that it has sent. -/
theorem stage_accounts (stage : List (Running α)) (events : List (Timestamp × StageEvent))
    (hopen : ∀ e ∈ events, e.2 ≠ .stop) (closing : Option Timestamp) :
    let history := events ++ closing.toList.map fun now => (now, .stop)
    let inputs := events.filterMap fun e => e.2.metric?
    let out := sent stage history
    out.map Prod.snd = (run stage history).2 ∧
    sentBy none out =
      inputs.filter (fun m => !stage.any fun a => a.withholds && a.filter.select m) ∧
    ∀ (k : Nat) (a : Running α), stage[k]? = some a →
      let calls := a.calls events
      let last := closing.toList.map .push
      let b := a.callAll (calls ++ last)
      (run stage history).1[k]? = some b ∧ sentBy (some k) out = a.gives (calls ++ last) ∧
      calls.filterMap Running.Call.metric? = inputs ∧
      (∀ before now after, calls = before ++ .push now :: after →
        (a.callAll before).deadline ≤ now) ∧
      b.stats.aggregated + b.stats.filtered + b.stats.dropped =
        a.stats.aggregated + a.stats.filtered + a.stats.dropped + inputs.countP a.filter.select ∧
      b.stats.pushed = a.stats.pushed + (sentBy (some k) out).length := by
  intro history inputs out
  have hinputs : history.filterMap (fun e => e.2.metric?) = inputs := by
    rw [List.filterMap_append]
    cases closing <;> exact List.append_nil _
  refine ⟨map_snd_sent stage history, hinputs ▸ sentBy_none_sent stage history, ?_⟩
  intro k a ha calls last b
  have hcalls : a.calls history = calls ++ last := by
    rw [Running.calls_append]
    cases closing <;> rfl
  have hoffered : (calls ++ last).filterMap Running.Call.metric? = inputs := by
    rw [← hcalls, Running.filterMap_metric?_calls, hinputs]
  have hsent : sentBy (some k) out = a.gives (calls ++ last) := hcalls ▸ sentBy_sent ha history
  refine ⟨?_, hsent, a.filterMap_metric?_calls events,
    fun before now after => Running.deadline_le_of_calls hopen, ?_, ?_⟩
  · rw [fst_run, List.getElem?_map, ha, Option.map_some, ← Running.callAll_calls, hcalls]
  · have hselected := a.selected_callAll (calls ++ last)
    rw [hoffered] at hselected
    exact hselected
  · rw [hsent]
    exact a.pushed_callAll (calls ++ last)

/-- Two aggregators: one takes all metrics, in windows of half a minute, and one
withholds those that are called `up`, in windows of a minute. -/
def accounted : List (Running Aggregator) :=
  [{ merging with name := "all" },
    { merging with
      withholds := true
      window := .make (.ofSeconds 60) (.ofSeconds 60) .zero
      filter := { Filter.empty with namePass := some (· == "up") } }]

def arrivals : List (Timestamp × StageEvent) :=
  [(.ofSeconds 75, .metric (reading 75)), (.ofSeconds 90, .timer),
    (.ofSeconds 95, .metric { reading 95 with name := "down" }),
    (.ofSeconds 99, .metric (reading 10)), (.ofSeconds 130, .timer),
    (.ofSeconds 130, .metric (reading 125))]

theorem stage_accounts_two :
    let out := sent accounted (arrivals ++ [(.ofSeconds 131, .stop)])
    out.map (fun s => (s.1, s.2.name)) =
      [(some 0, "up"), (none, "down"), (some 0, "down"), (some 1, "up"), (some 0, "up"),
        (some 1, "up")] ∧
    sentBy none out = [{ reading 95 with name := "down" }] ∧
    ∃ a b : Running Aggregator, accounted[1]? = some a ∧
      (run accounted (arrivals ++ [(.ofSeconds 131, .stop)])).1[1]? = some b ∧
      (a.calls arrivals).length = 5 ∧ b.stats = ⟨2, 0, 1, 2⟩ ∧
      (sentBy (some 1) out).length = b.stats.pushed := by
  intro out
  obtain ⟨-, horiginals, hall⟩ :=
    stage_accounts accounted arrivals (by simp [arrivals]) (some (.ofSeconds 131))
  obtain ⟨hb, -, -, -, -, hpushed⟩ := hall 1 _ rfl
  refine ⟨by decide +kernel, horiginals.trans (by decide +kernel), _, _, rfl, hb, ?_, ?_, ?_⟩
  · decide +kernel
  · decide +kernel
  · exact (hpushed.trans (Nat.zero_add _)).symm

end AggregatorStage

end MetricAgent
