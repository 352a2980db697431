import MetricAgent.Pipeline.Service

/-!
# What a service asks of its sinks

`Course` says for each phase of a service what each sink has been asked to do so
far: which ones are connected, which ones are closed again, and that writes
stand between the two. Every event keeps to it (`Lawful.step`), whatever the
sinks answer, so every run does. A service that has begun to close its sinks
returns after as many answers as there are sinks left, be they failures or not.
-/

namespace MetricAgent

namespace Output

theorem name_add (o : Output) (m : Metric) : (o.add m).1.name = o.name := by
  unfold add
  split <;> rfl

theorem name_addAll (o : Output) (ms : List Metric) : (o.addAll ms).1.name = o.name := by
  induction ms generalizing o with
  | nil => rfl
  | cons m ms ih => exact (ih (o.add m).1).trans (o.name_add m)

theorem name_endWrite (o : Output) (batch : Batch Metric) (succeeded : Bool) :
    (o.endWrite batch succeeded).name = o.name := by
  unfold endWrite
  split <;> rfl

theorem name_send (o : Output) (batch : Batch Metric) (r : Reaction) :
    (o.send batch r).1.name = o.name :=
  (name_endWrite _ batch _).trans (o.name_addAll r.adds)

theorem name_writeBatch (o : Output) (script : List Reaction) :
    (o.writeBatch script).output.name = o.name := by
  simp only [writeBatch]
  split
  · rfl
  · exact name_send ..

theorem name_writeLoop (fuel remaining : Nat) (o : Output) (script : List Reaction) :
    (writeLoop fuel remaining o script).output.name = o.name := by
  induction fuel generalizing remaining o script with
  | zero => rfl
  | succ fuel ih =>
      simp only [writeLoop]
      split
      · rfl
      · split
        · exact name_send ..
        · exact (ih ..).trans (name_send ..)

theorem name_write (o : Output) (script : List Reaction) : (o.write script).output.name = o.name :=
  name_writeLoop ..

end Output

namespace OutputTask

variable {o o' : OutputTask}

theorem name_offer (o : OutputTask) (m : Metric) : (o.offer m).output.name = o.output.name :=
  o.output.name_add m

theorem name_stop (h : o.stop = some o') : o'.output.name = o.output.name := by
  unfold OutputTask.stop at h
  split at h
  · cases h
    rfl
  · cases h

theorem name_step {a : LoopAction} (h : o.step a = some o') : o'.output.name = o.output.name := by
  cases a with
  | tick =>
      simp only [OutputTask.step] at h
      split at h <;> cases h
      rfl
  | expire => exact name_stop h
  | wake =>
      simp only [OutputTask.step] at h
      split at h
      · simp only [Option.ite_none_right_eq_some, Option.some.injEq] at h
        obtain ⟨-, rfl⟩ := h
        rfl
      · cases h
  | write =>
      simp only [OutputTask.step] at h
      split at h
      · split at h <;> cases h <;> rfl
      · cases h
  | settle succeeded =>
      simp only [OutputTask.step] at h
      split at h
      · split at h <;> cases h <;> exact Output.name_endWrite ..
      · cases h

end OutputTask

namespace FanOut

def names (f : FanOut) : List String := f.outputs.map fun o => o.output.name

variable {f f' : FanOut}

theorem names_set {i : Nat} {o o' : OutputTask} (ho : f.outputs[i]? = some o)
    (hname : o'.output.name = o.output.name) :
    ({ f with outputs := f.outputs.set i o' } : FanOut).names = f.names := by
  obtain ⟨hi, rfl⟩ := List.getElem?_eq_some_iff.1 ho
  simp only [names, List.map_set, hname]
  rw [← List.getElem_map (fun o : OutputTask => o.output.name) (h := by simpa using hi),
    List.set_getElem_self]

theorem names_step {a : FanAction} (h : f.step a = some f') : f'.names = f.names := by
  cases a with
  | take =>
      simp only [step] at h
      split at h <;> cases h
      rfl
  | hand =>
      simp only [step] at h
      split at h
      · split at h
        · next o ho =>
          cases h
          exact names_set ho (o.name_offer _)
        · cases h
          rfl
      · cases h
  | finish =>
      simp only [step, Option.ite_none_right_eq_some, Option.some.injEq] at h
      obtain ⟨-, rfl⟩ := h
      rfl

theorem names_onOutput {i : Nat} {change : OutputTask → Option OutputTask}
    (hchange : ∀ {o o' : OutputTask}, change o = some o' → o'.output.name = o.output.name)
    (h : f.onOutput i change = some f') : f'.names = f.names := by
  simp only [onOutput, Option.map_eq_some_iff, Option.bind_eq_some_iff] at h
  obtain ⟨o', ⟨o, ho, ho'⟩, rfl⟩ := h
  exact names_set ho (hchange ho')

end FanOut

namespace Tasks

variable {t t' : Tasks}

theorem names_passOut {passage : Passage} (h : t.passOut? passage = some t') :
    t'.fan.names = t.fan.names := by
  simp only [passOut?, Option.map_eq_some_iff] at h
  obtain ⟨l, -, rfl⟩ := h
  rfl

theorem names_pass {i : Nat} {passage : Passage} (h : t.pass? i passage = some t') :
    t'.fan.names = t.fan.names := by
  simp only [pass?] at h
  split at h
  · simp only [Option.map_eq_some_iff] at h
    obtain ⟨l, -, rfl⟩ := h
    rfl
  · simp only [passOn?] at h
    split at h
    · simp only [Option.map_eq_some_iff] at h
      obtain ⟨l, -, rfl⟩ := h
      rfl
    · exact names_passOut h

/-- No task gives an output another name, or brings one in. -/
theorem names_step {a : TaskAction} (h : t.step a = some t') : t'.fan.names = t.fan.names := by
  cases a with
  | source i a =>
      simp only [step, bind, Option.bind_eq_some_iff] at h
      obtain ⟨s, -, ⟨s', passage⟩, -, h⟩ := h
      exact (names_pass h).trans rfl
  | stage i a =>
      simp only [step, bind, Option.bind_eq_some_iff] at h
      obtain ⟨s, -, ⟨s', passage⟩, -, h⟩ := h
      exact (names_pass h).trans rfl
  | aggregators a =>
      simp only [step, bind, Option.bind_eq_some_iff] at h
      obtain ⟨s, -, ⟨s', passage⟩, -, h⟩ := h
      exact (names_passOut h).trans rfl
  | fanOut a =>
      simp only [step, Option.map_eq_some_iff] at h
      obtain ⟨f, hf, rfl⟩ := h
      exact FanOut.names_step hf

end Tasks

namespace SinkCall

def callsTo (calls : List (Nat × SinkCall)) (i : Nat) : List SinkCall :=
  calls.filterMap fun c => if c.1 = i then some c.2 else none

/-- The sinks that were to be connected, in the order of the attempts. -/
def connects (calls : List (Nat × SinkCall)) : List Nat :=
  calls.filterMap fun c => match c.2 with
    | .connect _ => some c.1
    | _ => none

/-- The calls of a sink that is connected: what follows are writes. -/
def Opened (cs : List SinkCall) : Prop :=
  ∃ written : List (List Metric), cs = .connect none :: written.map .write

/-- The calls of a sink that was connected and is closed again, which its writes
precede. -/
def Closed (cs : List SinkCall) : Prop :=
  ∃ (written : List (List Metric)) (failure : Option String),
    cs = .connect none :: (written.map .write ++ [.close failure])

variable {calls more : List (Nat × SinkCall)} {cs : List SinkCall} {i j : Nat}

theorem callsTo_append : callsTo (calls ++ more) j = callsTo calls j ++ callsTo more j :=
  List.filterMap_append

theorem connects_append : connects (calls ++ more) = connects calls ++ connects more :=
  List.filterMap_append

theorem callsTo_self (cs : List SinkCall) : callsTo (cs.map (i, ·)) i = cs := by
  have hall : ((fun c : Nat × SinkCall => if c.1 = i then some c.2 else none) ∘ (i, ·)) = some :=
    funext fun _ => if_pos rfl
  rw [callsTo, List.filterMap_map, hall, List.filterMap_some]

theorem callsTo_other (h : j ≠ i) (cs : List SinkCall) : callsTo (cs.map (i, ·)) j = [] := by
  rw [callsTo, List.filterMap_map]
  exact List.filterMap_eq_nil_iff.2 fun c _ => if_neg (Ne.symm h)

theorem connects_writes (written : List (List Metric)) :
    connects ((written.map .write).map (i, ·)) = [] := by
  simp [connects, List.filterMap_map, Function.comp_def]

theorem Opened.writes (h : Opened cs) (written : List (List Metric)) :
    Opened (cs ++ written.map .write) := by
  obtain ⟨before, rfl⟩ := h
  exact ⟨before ++ written, by simp⟩

theorem Opened.close (h : Opened cs) (written : List (List Metric)) (failure : Option String) :
    Closed (cs ++ (written.map .write ++ [.close failure])) := by
  obtain ⟨before, rfl⟩ := h
  exact ⟨before ++ written, failure, by simp⟩

end SinkCall

namespace Service

/-- One sink could not be connected. Of those before it, so many are closed
again; the ones behind it are left alone. -/
structure Refused (p : Pipeline) (calls : List (Nat × SinkCall)) (failed done : Nat)
    (e : OutputError) : Prop where
  order : SinkCall.connects calls = List.range (failed + 1)
  refusal : ∃ (o : Outlet) (text : String), p.outlets[failed]? = some o ∧
    SinkCall.callsTo calls failed = [.connect (some text)] ∧ e = .connect o.output.name text
  closed : ∀ i < done, ∃ failure, SinkCall.callsTo calls i = [.connect none, .close failure]
  opened : ∀ i, done ≤ i → i < failed → SinkCall.callsTo calls i = [.connect none]
  untouched : ∀ i, failed < i → SinkCall.callsTo calls i = []

/-- All sinks are connected, and so many of them are closed again. -/
structure Served (p : Pipeline) (calls : List (Nat × SinkCall)) (done : Nat) : Prop where
  order : SinkCall.connects calls = List.range p.outlets.length
  closed : ∀ i < done, SinkCall.Closed (SinkCall.callsTo calls i)
  opened : ∀ i, done ≤ i → i < p.outlets.length → SinkCall.Opened (SinkCall.callsTo calls i)
  untouched : ∀ i, p.outlets.length ≤ i → SinkCall.callsTo calls i = []

/-- What the sinks have been asked to do in a phase. -/
inductive Course (p : Pipeline) (calls : List (Nat × SinkCall)) : ServicePhase → Prop where
  | connecting {i : Nat} (hi : i < p.outlets.length)
      (order : SinkCall.connects calls = List.range i)
      (opened : ∀ j < i, SinkCall.callsTo calls j = [.connect none])
      (untouched : ∀ j, i ≤ j → SinkCall.callsTo calls j = []) : Course p calls (.connecting i)
  | undoing {failed i : Nat} {e : OutputError} (hi : i < failed)
      (h : Refused p calls failed i e) : Course p calls (.undoing failed i e)
  | undone {failed : Nat} {e : OutputError} (h : Refused p calls failed failed e) :
      Course p calls (.returned (some e))
  | up {phase : ServicePhase} (hup : phase.isUp = true) (h : Served p calls 0) :
      Course p calls phase
  | finishing {i : Nat} (hi : i < p.outlets.length) (h : Served p calls i) :
      Course p calls (.finishing i)
  | finished (h : Served p calls p.outlets.length) : Course p calls (.returned none)

structure Lawful (p : Pipeline) (s : Service) : Prop where
  names : s.tasks.fan.names = p.outlets.map fun o => o.output.name
  course : Course p s.calls s.phase

variable {p : Pipeline} {s s' : Service} {calls : List (Nat × SinkCall)} {i done failed : Nat}
  {e : OutputError}

theorem length_of_names (h : s.tasks.fan.names = p.outlets.map fun o => o.output.name) :
    s.outputs.length = p.outlets.length := by
  simpa [FanOut.names, outputs] using congrArg List.length h

theorem exists_outlet {o : OutputTask}
    (h : s.tasks.fan.names = p.outlets.map fun o => o.output.name) (ho : s.outputs[i]? = some o) :
    ∃ outlet, p.outlets[i]? = some outlet ∧ outlet.output.name = o.output.name := by
  have hname : s.tasks.fan.names[i]? = some o.output.name := by
    rw [FanOut.names, List.getElem?_map, show s.tasks.fan.outputs[i]? = some o from ho]
    rfl
  rwa [h, List.getElem?_map, Option.map_eq_some_iff] at hname

/-! ### What the calls of one sink add -/

theorem Refused.close (h : Refused p calls failed i e) (hi : i < failed) (failure : Option String) :
    Refused p (calls ++ [SinkCall.close failure].map (i, ·)) failed (i + 1) e where
  order := by
    rw [SinkCall.connects_append, h.order]
    exact List.append_nil _
  refusal := by
    obtain ⟨o, text, ho, hcalls, he⟩ := h.refusal
    refine ⟨o, text, ho, ?_, he⟩
    rw [SinkCall.callsTo_append, hcalls, SinkCall.callsTo_other (by omega), List.append_nil]
  closed j hj := by
    rw [SinkCall.callsTo_append]
    rcases Nat.lt_succ_iff_lt_or_eq.1 hj with hlt | rfl
    · obtain ⟨f, hf⟩ := h.closed j hlt
      exact ⟨f, by rw [hf, SinkCall.callsTo_other (by omega), List.append_nil]⟩
    · exact ⟨failure, by rw [h.opened j (Nat.le_refl j) hi, SinkCall.callsTo_self]; rfl⟩
  opened j hj hlt := by
    rw [SinkCall.callsTo_append, h.opened j (by omega) hlt, SinkCall.callsTo_other (by omega),
      List.append_nil]
  untouched j hj := by
    rw [SinkCall.callsTo_append, h.untouched j hj, SinkCall.callsTo_other (by omega),
      List.append_nil]

theorem Served.write (h : Served p calls done) (hdone : done ≤ i) (hi : i < p.outlets.length)
    (written : List (List Metric)) :
    Served p (calls ++ (written.map SinkCall.write).map (i, ·)) done where
  order := by rw [SinkCall.connects_append, h.order, SinkCall.connects_writes, List.append_nil]
  closed j hj := by
    rw [SinkCall.callsTo_append, SinkCall.callsTo_other (by omega), List.append_nil]
    exact h.closed j hj
  opened j hj hlt := by
    rw [SinkCall.callsTo_append]
    by_cases hji : j = i
    · subst hji
      rw [SinkCall.callsTo_self]
      exact (h.opened j hj hlt).writes written
    · rw [SinkCall.callsTo_other hji, List.append_nil]
      exact h.opened j hj hlt
  untouched j hj := by
    rw [SinkCall.callsTo_append, h.untouched j hj, SinkCall.callsTo_other (by omega),
      List.append_nil]

theorem Served.finish (h : Served p calls i) (hi : i < p.outlets.length)
    (written : List (List Metric)) (failure : Option String) :
    Served p (calls ++ (written.map SinkCall.write ++ [SinkCall.close failure]).map (i, ·))
      (i + 1) where
  order := by
    rw [SinkCall.connects_append, h.order, List.map_append, SinkCall.connects_append,
      SinkCall.connects_writes]
    exact List.append_nil _
  closed j hj := by
    rw [SinkCall.callsTo_append]
    rcases Nat.lt_succ_iff_lt_or_eq.1 hj with hlt | rfl
    · rw [SinkCall.callsTo_other (by omega), List.append_nil]
      exact h.closed j hlt
    · rw [SinkCall.callsTo_self]
      exact (h.opened j (Nat.le_refl j) hi).close written failure
  opened j hj hlt := by
    rw [SinkCall.callsTo_append, SinkCall.callsTo_other (by omega), List.append_nil]
    exact h.opened j (by omega) hlt
  untouched j hj := by
    rw [SinkCall.callsTo_append, h.untouched j hj, SinkCall.callsTo_other (by omega),
      List.append_nil]

/-! ### The next phase -/

theorem course_connectFrom (hlength : s.outputs.length = p.outlets.length)
    (hi : i ≤ p.outlets.length) (order : SinkCall.connects calls = List.range i)
    (opened : ∀ j < i, SinkCall.callsTo calls j = [.connect none])
    (untouched : ∀ j, i ≤ j → SinkCall.callsTo calls j = []) :
    Course p calls (s.connectFrom i) := by
  unfold connectFrom
  rw [hlength]
  split
  · next hlt => exact .connecting hlt order opened untouched
  · next hge =>
    have hall : i = p.outlets.length := by omega
    subst hall
    exact .up rfl ⟨order, nofun, fun j _ hj => ⟨[], opened j hj⟩, untouched⟩

theorem course_undoFrom (hi : i ≤ failed) (h : Refused p calls failed i e) :
    Course p calls (undoFrom failed i e) := by
  unfold undoFrom
  split
  · next hlt => exact .undoing hlt h
  · next hge =>
    have hall : i = failed := by omega
    subst hall
    exact .undone h

theorem course_finishFrom (hlength : s.outputs.length = p.outlets.length)
    (hi : i ≤ p.outlets.length) (h : Served p calls i) : Course p calls (s.finishFrom i) := by
  unfold finishFrom
  rw [hlength]
  split
  · next hlt => exact .finishing hlt h
  · next hge =>
    have hall : i = p.outlets.length := by omega
    subst hall
    exact .finished h

theorem Course.served (h : Course p calls s.phase) (hup : s.phase.isUp = true) :
    Served p calls 0 := by
  generalize s.phase = phase at h hup
  cases h with
  | up _ h => exact h
  | connecting | undoing | undone | finishing | finished => cases hup

/-! ### One event -/

theorem exists_writes_eq_writeCall (i : Nat) (a : LoopAction) (o : OutputTask) :
    ∃ written : List (List Metric), writeCall i a o = (written.map SinkCall.write).map (i, ·) := by
  unfold writeCall
  split
  · next batch _ => exact ⟨[batch.items], rfl⟩
  · exact ⟨[], rfl⟩

theorem lawful_start (p : Pipeline) : (start p).Lawful p := by
  have hnames : (start p).tasks.fan.names = p.outlets.map fun o => o.output.name := by
    have hfirst : (Tasks.start Pipeline.channelSize p).fan.names =
        p.outlets.map fun o => o.output.name := by
      simp [FanOut.names, Tasks.start, OutputTask.start, Function.comp_def]
    simp only [start]
    split
    · cases hpass : (Tasks.start Pipeline.channelSize p).pass? 0 .finish with
      | none => exact hfirst
      | some t => exact (Tasks.names_pass hpass).trans hfirst
    · exact hfirst
  exact ⟨hnames, course_connectFrom (length_of_names hnames) (Nat.zero_le _) rfl nofun
    fun _ _ => rfl⟩

theorem Lawful.connect {failure : Option String} (h : s.Lawful p)
    (hstep : s.step (.connect failure) = some s') : s'.Lawful p := by
  obtain ⟨hnames, hcourse⟩ := h
  have hlength := length_of_names hnames
  simp only [step] at hstep
  split at hstep
  · next i hphase =>
    rw [hphase] at hcourse
    simp only [bind, Option.bind_eq_some_iff, pure, Option.some.injEq] at hstep
    obtain ⟨o, ho, rfl⟩ := hstep
    refine ⟨hnames, ?_⟩
    cases hcourse with
    | up hup _ => cases hup
    | connecting hi order opened untouched =>
      have horder : SinkCall.connects (s.calls ++ [SinkCall.connect failure].map (i, ·)) =
          List.range (i + 1) := by
        rw [SinkCall.connects_append, order, List.range_succ]
        rfl
      have hself : SinkCall.callsTo (s.calls ++ [SinkCall.connect failure].map (i, ·)) i =
          [.connect failure] := by
        rw [SinkCall.callsTo_append, untouched i (Nat.le_refl i), SinkCall.callsTo_self]
        rfl
      have hother : ∀ j ≠ i, SinkCall.callsTo (s.calls ++ [SinkCall.connect failure].map (i, ·)) j =
          SinkCall.callsTo s.calls j := fun j hj => by
        rw [SinkCall.callsTo_append, SinkCall.callsTo_other hj, List.append_nil]
      have hbehind : ∀ j, i < j →
          SinkCall.callsTo (s.calls ++ [SinkCall.connect failure].map (i, ·)) j = [] := fun j hj =>
        (hother j (by omega)).trans (untouched j (by omega))
      cases failure with
      | none =>
          refine course_connectFrom hlength hi horder (fun j hj => ?_) hbehind
          rcases Nat.lt_succ_iff_lt_or_eq.1 hj with hlt | rfl
          · exact (hother j (by omega)).trans (opened j hlt)
          · exact hself
      | some text =>
          obtain ⟨outlet, houtlet, hname⟩ := exists_outlet hnames ho
          refine course_undoFrom (Nat.zero_le i) ⟨horder, ?_, nofun, fun j _ hj => ?_, hbehind⟩
          · exact ⟨outlet, text, houtlet, hself, by rw [hname]⟩
          · exact (hother j (by omega)).trans (opened j hj)
  · cases hstep

theorem Lawful.undo {failure : Option String} (h : s.Lawful p)
    (hstep : s.step (.undo failure) = some s') : s'.Lawful p := by
  obtain ⟨hnames, hcourse⟩ := h
  simp only [step] at hstep
  split at hstep
  · next failed i e hphase =>
    rw [hphase] at hcourse
    cases hstep
    cases hcourse with
    | up hup _ => cases hup
    | undoing hi h => exact ⟨hnames, course_undoFrom hi (h.close hi failure)⟩
  · cases hstep

theorem Lawful.loop {k : Nat} {a : LoopAction} (h : s.Lawful p)
    (hstep : s.step (.loop k a) = some s') : s'.Lawful p := by
  obtain ⟨hnames, hcourse⟩ := h
  simp only [step, bind, pure, Option.ite_none_right_eq_some, Option.bind_eq_some_iff,
    Option.some.injEq] at hstep
  obtain ⟨hup, o, ho, o', ho', rfl⟩ := hstep
  obtain ⟨written, hwritten⟩ := exists_writes_eq_writeCall k a o'
  have hk : k < p.outlets.length := by
    rw [← length_of_names hnames]
    exact (List.getElem?_eq_some_iff.1 ho).1
  refine ⟨(FanOut.names_set ho (OutputTask.name_step ho')).trans hnames, .up hup ?_⟩
  rw [hwritten]
  exact (hcourse.served hup).write (Nat.zero_le k) hk written

theorem Lawful.proceed (h : s.Lawful p) (hstep : s.step .proceed = some s') : s'.Lawful p := by
  obtain ⟨hnames, hcourse⟩ := h
  simp only [step] at hstep
  split at hstep
  · next hphase =>
    split at hstep <;> cases hstep
    exact ⟨hnames, .up rfl (hcourse.served (by rw [hphase]; rfl))⟩
  · next hphase =>
    split at hstep <;> cases hstep
    exact ⟨hnames, .up rfl (hcourse.served (by rw [hphase]; rfl))⟩
  · next hphase =>
    split at hstep <;> cases hstep
    exact ⟨hnames, course_finishFrom (length_of_names hnames) (Nat.zero_le _)
      (hcourse.served (by rw [hphase]; rfl))⟩
  · cases hstep

theorem Lawful.finish {writes : List (Option String)} {failure : Option String} (h : s.Lawful p)
    (hstep : s.step (.finish writes failure) = some s') : s'.Lawful p := by
  obtain ⟨hnames, hcourse⟩ := h
  simp only [step] at hstep
  split at hstep
  · next i hphase =>
    rw [hphase] at hcourse
    simp only [bind, pure, Option.bind_eq_some_iff, Option.some.injEq] at hstep
    obtain ⟨o, ho, rfl⟩ := hstep
    cases hcourse with
    | up hup _ => cases hup
    | finishing hi h =>
      have hcalls : (Service.finish o i writes failure).2 =
          (((o.output.write (writes.map fun failure => ⟨[], failure⟩)).log.map
            SinkWrite.metrics).map SinkCall.write ++ [SinkCall.close failure]).map (i, ·) := by
        simp [Service.finish]
      refine ⟨(FanOut.names_set ho (Output.name_write ..)).trans hnames,
        course_finishFrom (length_of_names hnames) hi ?_⟩
      rw [hcalls]
      exact h.finish hi _ failure
  · cases hstep

/-- No event departs from the course. -/
theorem Lawful.step {event : ServiceEvent} (h : s.Lawful p) (hstep : s.step event = some s') :
    s'.Lawful p := by
  cases event with
  | connect failure => exact h.connect hstep
  | undo failure => exact h.undo hstep
  | task a =>
      simp only [Service.step, Option.ite_none_right_eq_some, Option.map_eq_some_iff] at hstep
      obtain ⟨hup, t, ht, rfl⟩ := hstep
      exact ⟨(Tasks.names_step ht).trans h.names, .up hup (h.course.served hup)⟩
  | loop i a => exact h.loop hstep
  | shutdown =>
      simp only [Service.step] at hstep
      split at hstep
      · next hphase =>
        cases hstep
        exact ⟨h.names, .up rfl (h.course.served (by rw [hphase]; rfl))⟩
      · cases hstep
  | proceed => exact h.proceed hstep
  | endLoop i =>
      simp only [Service.step] at hstep
      split at hstep
      · simp only [onOutput, Option.map_eq_some_iff] at hstep
        obtain ⟨f, hf, rfl⟩ := hstep
        exact ⟨(FanOut.names_onOutput OutputTask.name_stop hf).trans h.names, h.course⟩
      · cases hstep
  | finish writes failure => exact h.finish hstep

theorem Lawful.next (h : s.Lawful p) (event : ServiceEvent) : (s.next event).Lawful p := by
  unfold Service.next
  cases hstep : s.step event with
  | none => exact h
  | some s' => exact h.step hstep

theorem Lawful.run (h : s.Lawful p) (events : List ServiceEvent) : (s.run events).Lawful p :=
  List.foldlRecOn (motive := Lawful p) events _ h fun _ hs event _ => hs.next event

/-! ### The way to the end -/

/-- Once a connect has failed, every answer to a close is followed by the next
close, up to the last one. -/
theorem phase_run_undo {answers : List (Option String)} (hphase : s.phase = undoFrom failed i e)
    (hlength : answers.length = failed - i) :
    (s.run (answers.map .undo)).phase = .returned (some e) := by
  induction answers generalizing s i with
  | nil =>
      have hi : ¬ i < failed := Nat.not_lt.2 (Nat.le_of_sub_eq_zero hlength.symm)
      rwa [undoFrom, if_neg hi] at hphase
  | cons answer answers ih =>
      rw [List.length_cons] at hlength
      rw [undoFrom, if_pos (by omega)] at hphase
      have hnext : s.next (.undo answer) = { s with
          phase := undoFrom failed (i + 1) e, calls := s.calls ++ [(i, .close answer)] } := by
        simp only [Service.next, Service.step, hphase, Option.getD_some]
      rw [List.map_cons]
      exact ih (s := s.next (.undo answer)) (by rw [hnext]) (by omega)

/-- So it is with the outputs that are flushed and closed at the end, whatever
comes of their flushes. -/
theorem phase_run_finish {answers : List (List (Option String) × Option String)}
    (hphase : s.phase = s.finishFrom i) (hlength : answers.length = s.outputs.length - i) :
    (s.run (answers.map fun a => .finish a.1 a.2)).phase = .returned none := by
  induction answers generalizing s i with
  | nil =>
      have hi : ¬ i < s.outputs.length := Nat.not_lt.2 (Nat.le_of_sub_eq_zero hlength.symm)
      rwa [finishFrom, if_neg hi] at hphase
  | cons answer answers ih =>
      rw [List.length_cons] at hlength
      have hi : i < s.outputs.length := by omega
      rw [finishFrom, if_pos hi] at hphase
      have hget : s.outputs[i]? = some s.outputs[i] := List.getElem?_eq_getElem hi
      have hnext : (s.next (.finish answer.1 answer.2)).phase = s.finishFrom (i + 1) ∧
          (s.next (.finish answer.1 answer.2)).outputs.length = s.outputs.length := by
        simp only [Service.next, Service.step, hphase, hget]
        exact ⟨rfl, List.length_set⟩
      obtain ⟨hphase', hlength'⟩ := hnext
      rw [List.map_cons]
      have hfrom : s.finishFrom (i + 1) =
          (s.next (.finish answer.1 answer.2)).finishFrom (i + 1) := by
        simp only [finishFrom, hlength']
      exact ih (hphase'.trans hfrom) (by omega)

end Service
end MetricAgent
