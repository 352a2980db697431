import MetricAgent.Output

/-!
# Histories of an output

A history follows an output with the metrics that its buffer admitted and those
that its sink took. It goes on in two ways. A `OutputMove` is one thing that
happens to the buffer: a metric comes in, a write begins, a write ends. A
`OutputCall` is what a caller asks for: to add a metric, to write all that is
buffered, or to write one batch, where the sink reacts as a script says.

A call is made of moves (`exists_moves_call`). So what every move keeps, every
call keeps, and the moves also reach the states in the middle of a write.
-/

namespace MetricAgent

namespace Output

/-- The metric that is buffered for a metric, unless the filter refuses it. -/
def admit? (o : Output) (m : Metric) : Option Metric := (o.filter.apply m).map o.rename.apply

theorem admit?_congr {o p : Output} (hf : o.filter = p.filter) (hr : o.rename = p.rename) :
    o.admit? = p.admit? := by
  funext m
  rw [admit?, admit?, hf, hr]

@[simp] theorem admit?_add (o : Output) (m : Metric) : (o.add m).1.admit? = o.admit? := by
  unfold add
  split <;> exact admit?_congr rfl rfl

@[simp] theorem admit?_addAll (o : Output) (ms : List Metric) :
    (o.addAll ms).1.admit? = o.admit? := by
  induction ms generalizing o with
  | nil => rfl
  | cons m ms ih => exact (ih (o.add m).1).trans (o.admit?_add m)

@[simp] theorem admit?_beginWrite (o : Output) (n : Nat) : (o.beginWrite n).1.admit? = o.admit? :=
  admit?_congr rfl rfl

@[simp] theorem admit?_endWrite (o : Output) (batch : Batch Metric) (succeeded : Bool) :
    (o.endWrite batch succeeded).admit? = o.admit? := by
  unfold endWrite
  split <;> exact admit?_congr rfl rfl

end Output

/-- One thing that happens to the buffer of an output. -/
inductive OutputMove where
  | add (m : Metric)
  | beginWrite (n : Nat)
  | endWrite (succeeded : Bool)

/-- What a caller asks of an output. A script says how the sink reacts. -/
inductive OutputCall where
  | add (m : Metric)
  | write (script : List Reaction)
  | writeBatch (script : List Reaction)

structure OutputHistory where
  output : Output
  /-- What was buffered, as it was buffered, in order. -/
  admitted : List Metric
  /-- What the sink took, batch after batch. -/
  delivered : List Metric
  /-- The batch that the sink is looking at. -/
  writing : Option (Batch Metric)

namespace OutputHistory

def start (s : OutputSettings) (maxBatch : Option Nat) : OutputHistory :=
  ⟨Output.make s maxBatch, [], [], none⟩

/-- Makes a move. There is no write of no metrics, and no second write while
one is in progress. -/
def move (h : OutputHistory) : OutputMove → OutputHistory
  | .add m =>
    { h with
      output := (h.output.add m).1
      admitted := h.admitted ++ (h.output.admit? m).toList }
  | .beginWrite n =>
    match h.writing with
    | some _ => h
    | none =>
      { h with
        output := (h.output.beginWrite n).1
        writing :=
          if (h.output.beginWrite n).2.isEmpty then none else some (h.output.beginWrite n).2 }
  | .endWrite succeeded =>
    match h.writing with
    | some batch =>
      { h with
        output := h.output.endWrite batch succeeded
        delivered := h.delivered ++ if succeeded then batch.items else []
        writing := none }
    | none => h

def moves (h : OutputHistory) (ms : List OutputMove) : OutputHistory := ms.foldl move h

/-- Takes over what a flush has left behind: what the sink handed in during the
writes that it saw, and what it took. -/
def flushed (h : OutputHistory) (script : List Reaction) (f : Output.Flush) : OutputHistory :=
  { h with
    output := f.output
    admitted := h.admitted ++
      ((script.take f.log.length).flatMap Reaction.adds).filterMap h.output.admit?
    delivered := h.delivered ++ (f.log.filter fun w => w.failure.isNone).flatMap SinkWrite.metrics }

def call (h : OutputHistory) : OutputCall → OutputHistory
  | .add m => h.move (.add m)
  | .write script => h.flushed script (h.output.write script)
  | .writeBatch script => h.flushed script (h.output.writeBatch script)

def calls (h : OutputHistory) (cs : List OutputCall) : OutputHistory := cs.foldl call h

@[simp] theorem moves_nil (h : OutputHistory) : h.moves [] = h := rfl

@[simp] theorem moves_cons (h : OutputHistory) (m : OutputMove) (ms : List OutputMove) :
    h.moves (m :: ms) = (h.move m).moves ms := rfl

theorem moves_append (h : OutputHistory) (ms ns : List OutputMove) :
    h.moves (ms ++ ns) = (h.moves ms).moves ns :=
  List.foldl_append

theorem moves_map_add (h : OutputHistory) (ms : List Metric) :
    h.moves (ms.map .add) =
      { h with
        output := (h.output.addAll ms).1
        admitted := h.admitted ++ ms.filterMap h.output.admit? } := by
  induction ms generalizing h with
  | nil => simp
  | cons m ms ih =>
      rw [List.map_cons, moves_cons, ih]
      simp only [move, Output.admit?_add, List.append_assoc, List.filterMap_cons]
      cases h.output.admit? m <;> rfl

/-! ### Calls are made of moves -/

def writeMoves (n : Nat) (r : Reaction) : List OutputMove :=
  .beginWrite n :: (r.adds.map .add ++ [.endWrite r.failure.isNone])

theorem moves_writeMoves {h : OutputHistory} (hw : h.writing = none) {n : Nat}
    (hb : (h.output.beginWrite n).2.isEmpty = false) (r : Reaction) :
    h.moves (writeMoves n r) =
      { output := ((h.output.beginWrite n).1.send (h.output.beginWrite n).2 r).1
        admitted := h.admitted ++ r.adds.filterMap h.output.admit?
        delivered := h.delivered ++
          if r.failure.isNone then (h.output.beginWrite n).2.items else []
        writing := none } := by
  rw [writeMoves, moves_cons, moves_append, moves_map_add]
  simp [move, hw, hb, Output.send]

theorem flatMap_adds_take (script : List Reaction) (k : Nat) :
    (script.take (k + 1)).flatMap Reaction.adds =
      (Output.nextReaction script).1.adds ++
        ((Output.nextReaction script).2.take k).flatMap Reaction.adds := by
  cases script with
  | nil => simp [Output.nextReaction]
  | cons r rest => simp [Output.nextReaction]

/-- A flush that begins with one write is that write and what follows it. -/
theorem flushed_cons {h : OutputHistory} (hw : h.writing = none) {n : Nat}
    (hb : (h.output.beginWrite n).2.isEmpty = false) (script : List Reaction) (f : Output.Flush) :
    let sent := (h.output.beginWrite n).1.send (h.output.beginWrite n).2
      (Output.nextReaction script).1
    h.flushed script { f with log := sent.2 :: f.log } =
      (h.moves (writeMoves n (Output.nextReaction script).1)).flushed
        (Output.nextReaction script).2 f := by
  intro sent
  have hadmit : sent.1.admit? = h.output.admit? := by
    simp only [sent, Output.send, Output.admit?_endWrite, Output.admit?_addAll,
      Output.admit?_beginWrite]
  rw [moves_writeMoves hw hb]
  simp only [flushed, List.length_cons, flatMap_adds_take, List.filterMap_append, hadmit, hw,
    List.append_assoc, sent]
  congr 2
  cases hf : (Output.nextReaction script).1.failure <;> simp [Output.send, hf]

/-- A flush that wrote nothing only asked for a batch. -/
theorem flushed_empty {h : OutputHistory} (hw : h.writing = none) {n : Nat}
    (hb : (h.output.beginWrite n).2.isEmpty = true) (script : List Reaction) :
    h.flushed script ⟨(h.output.beginWrite n).1, script, [], none⟩ = h.moves [.beginWrite n] := by
  simp [flushed, move, hw, hb]

@[simp] theorem flushed_nil (h : OutputHistory) (script rest : List Reaction)
    (failure : Option String) : h.flushed script ⟨h.output, rest, [], failure⟩ = h := by
  simp [flushed]

theorem exists_moves_writeLoop {h : OutputHistory} (hw : h.writing = none) (fuel remaining : Nat)
    (script : List Reaction) :
    ∃ ms, h.flushed script (Output.writeLoop fuel remaining h.output script) = h.moves ms := by
  induction fuel generalizing h remaining script with
  | zero => exact ⟨[], h.flushed_nil _ _ _⟩
  | succ fuel ih =>
      let n := min h.output.batchSize remaining
      by_cases hb : (h.output.beginWrite n).2.isEmpty = true
      · refine ⟨[.beginWrite n], ?_⟩
        rw [← flushed_empty hw hb script]
        simp [Output.writeLoop, n, hb]
      · have hb' : (h.output.beginWrite n).2.isEmpty = false := by simpa using hb
        let r := (Output.nextReaction script).1
        have hnext := moves_writeMoves hw hb' r
        have hidle : (h.moves (writeMoves n r)).writing = none := by rw [hnext]
        cases hf : r.failure with
        | some text =>
            refine ⟨writeMoves n r, ?_⟩
            have hcons := flushed_cons hw hb' script
              ⟨(h.moves (writeMoves n r)).output, (Output.nextReaction script).2, [], some text⟩
            rw [flushed_nil] at hcons
            rw [← hcons, hnext]
            simp [Output.writeLoop, n, r, hb', hf]
        | none =>
            obtain ⟨ms, hms⟩ := ih hidle (remaining - (h.output.beginWrite n).2.length)
              (Output.nextReaction script).2
            refine ⟨writeMoves n r ++ ms, ?_⟩
            rw [moves_append, ← hms, ← flushed_cons hw hb' script, hnext]
            simp [Output.writeLoop, n, r, hb', hf]

theorem exists_moves_writeBatch {h : OutputHistory} (hw : h.writing = none)
    (script : List Reaction) :
    ∃ ms, h.flushed script (h.output.writeBatch script) = h.moves ms := by
  let n := h.output.batchSize
  by_cases hb : (h.output.beginWrite n).2.isEmpty = true
  · refine ⟨[.beginWrite n], ?_⟩
    rw [← flushed_empty hw hb script]
    simp [Output.writeBatch, n, hb]
  · have hb' : (h.output.beginWrite n).2.isEmpty = false := by simpa using hb
    let r := (Output.nextReaction script).1
    refine ⟨writeMoves n r, ?_⟩
    have hcons := flushed_cons hw hb' script
      ⟨(h.moves (writeMoves n r)).output, (Output.nextReaction script).2, [], r.failure⟩
    rw [flushed_nil] at hcons
    rw [← hcons, moves_writeMoves hw hb' r]
    simp [Output.writeBatch, n, r, hb']

/-- Between calls no write is in progress, and a call makes moves. -/
theorem exists_moves_call {h : OutputHistory} (hw : h.writing = none) (c : OutputCall) :
    (h.call c).writing = none ∧ ∃ ms, h.call c = h.moves ms := by
  cases c with
  | add m => exact ⟨hw, [.add m], rfl⟩
  | write script => exact ⟨hw, exists_moves_writeLoop hw _ _ script⟩
  | writeBatch script => exact ⟨hw, exists_moves_writeBatch hw script⟩

theorem exists_moves_calls {h : OutputHistory} (hw : h.writing = none) (cs : List OutputCall) :
    (h.calls cs).writing = none ∧ ∃ ms, h.calls cs = h.moves ms := by
  induction cs generalizing h with
  | nil => exact ⟨hw, [], rfl⟩
  | cons c cs ih =>
      obtain ⟨hidle, ms, hms⟩ := exists_moves_call hw c
      obtain ⟨hidle', ns, hns⟩ := ih hidle
      refine ⟨hidle', ms ++ ns, ?_⟩
      rw [moves_append, ← hms, ← hns]
      rfl

end OutputHistory

end MetricAgent
