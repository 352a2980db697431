import MetricAgent.Buffer
import MetricAgent.Filter
import MetricAgent.Metric.Rename
import MetricAgent.Telemetry

/-!
# Outputs

An output stands between the agent and one sink. Metrics are filtered and
renamed on their way in and wait in a buffer, from where they are written to
the sink in batches. A batch that the sink refuses goes back to the front of
the buffer, and trying again is up to the next flush.

A sink may hand metrics to its own output while it writes. So a write is not
one step but two, `beginWrite` and `endWrite`, between which anything may be
added; `send` puts them together for one `Reaction` of the sink.

A full batch wakes whoever flushes the output. One wake is kept until it is
taken, and further ones until then are lost.
-/

namespace MetricAgent

structure OutputSettings where
  name : String
  id : Option String
  batchSize : Nat
  bufferLimit : Nat
  rename : Rename
  filter : Filter

inductive OutputError where
  | connect (output text : String)
  | write (output text : String)
  | close (output text : String)
deriving DecidableEq, Repr

namespace OutputError

def message : OutputError → String
  | .connect output text => "failed to connect output " ++ output ++ ": " ++ text
  | .write output text => "failed to write to output " ++ output ++ ": " ++ text
  | .close output text => "failed to close output " ++ output ++ ": " ++ text

def errorClass : OutputError → ErrorClass
  | .connect .. => .fatalConfig
  | .write .. => .transientWrite
  | .close .. => .transientWrite

end OutputError

inductive Admission where
  /-- It waits in the buffer, and so many older ones were dropped for it. -/
  | buffered (dropped : Nat)
  | filtered
deriving DecidableEq, Repr

def Admission.errorClass : Admission → Option ErrorClass
  | .buffered 0 => none
  | .buffered _ => some .overflow
  | .filtered => some .filterReject

structure OutputStats where
  added : Nat
  filtered : Nat
  dropped : Nat
  written : Nat
  errors : Nat
  bufferSize : Nat
  bufferLimit : Nat
deriving DecidableEq, Repr

/-- An output, without its sink. -/
structure Output where
  name : String
  id : Option String
  batchSize : Nat
  rename : Rename
  filter : Filter
  buffer : Buffer Metric
  stats : OutputStats
  reportedDrops : Nat
  /-- Whether a wake waits to be taken. -/
  wakeStored : Bool
  telemetry : Telemetry

/-- What a sink does with one write: it hands metrics to its own output, and
then it fails, with its words, or not. -/
structure Reaction where
  adds : List Metric
  failure : Option String

/-- One write that a sink has seen. -/
structure SinkWrite where
  metrics : List Metric
  during : List Admission
  failure : Option String

namespace Output

/-- An output before its first metric. Its batches are as large as configured,
unless the sink takes less, and never empty. -/
def make (s : OutputSettings) (maxBatch : Option Nat) : Output :=
  let buffer := Buffer.make s.bufferLimit
  { name := s.name
    id := s.id
    batchSize := max (min s.batchSize (maxBatch.getD s.batchSize)) 1
    rename := s.rename
    filter := s.filter
    buffer := buffer
    stats := ⟨0, 0, 0, 0, 0, 0, buffer.capacity⟩
    reportedDrops := 0
    wakeStored := false
    telemetry := (Telemetry.make "output" s.name s.id).set "buffer_limit" buffer.capacity }

/-- Takes a changed buffer in: its size and its drops are counted anew. -/
def withBuffer (o : Output) (buffer : Buffer Metric) : Output :=
  let fresh := buffer.dropped - o.buffer.dropped
  let telemetry := if 0 < fresh then o.telemetry.count "metrics_dropped" fresh else o.telemetry
  { o with
    buffer := buffer
    stats := { o.stats with
      dropped := max o.stats.dropped buffer.dropped
      bufferSize := buffer.size }
    telemetry := telemetry.set "buffer_size" buffer.size }

/-- Filters, renames and buffers a metric. Whenever the buffer reaches a
multiple of the batch size, a wake is stored. -/
def add (o : Output) (m : Metric) : Output × Admission :=
  match o.filter.apply m with
  | none =>
    ({ o with
      stats := { o.stats with filtered := o.stats.filtered + 1 }
      telemetry := o.telemetry.count "metrics_filtered" 1 }, .filtered)
  | some m =>
    let buffer := o.buffer.add (o.rename.apply m)
    let dropped := buffer.dropped - o.buffer.dropped
    let o := o.withBuffer buffer
    ({ o with
      stats := { o.stats with added := o.stats.added + 1 }
      telemetry := o.telemetry.count "metrics_added" 1
      wakeStored := o.wakeStored || buffer.size % o.batchSize == 0 }, .buffered dropped)

def addAll (o : Output) : List Metric → Output × List Admission
  | [] => (o, [])
  | m :: ms =>
    let (o, a) := o.add m
    let (o, as) := o.addAll ms
    (o, a :: as)

def takeWake (o : Output) : Output × Bool := ({ o with wakeStored := false }, o.wakeStored)

def beginWrite (o : Output) (n : Nat) : Output × Batch Metric :=
  let (buffer, batch) := o.buffer.batch n
  ({ o with buffer := buffer }, batch)

def endWrite (o : Output) (batch : Batch Metric) (succeeded : Bool) : Output :=
  if succeeded then
    let o := o.withBuffer (o.buffer.accept batch)
    { o with
      stats := { o.stats with written := o.stats.written + batch.length }
      telemetry := o.telemetry.count "metrics_written" batch.length }
  else
    let o := o.withBuffer (o.buffer.reject batch)
    { o with
      stats := { o.stats with errors := o.stats.errors + 1 }
      telemetry := o.telemetry.count "write_errors" 1 }

def send (o : Output) (batch : Batch Metric) (r : Reaction) : Output × SinkWrite :=
  let (o, during) := o.addAll r.adds
  (o.endWrite batch r.failure.isNone, ⟨batch.items, during, r.failure⟩)

/-- What a flush leaves behind: the output, the reactions that the sink has not
used, what the sink has seen, and the words of a failure. -/
structure Flush where
  output : Output
  script : List Reaction
  log : List SinkWrite
  failure : Option String

/-- The next reaction of a sink. One whose script is over takes everything. -/
def nextReaction : List Reaction → Reaction × List Reaction
  | [] => (⟨[], none⟩, [])
  | r :: rest => (r, rest)

def writeBatch (o : Output) (script : List Reaction) : Flush :=
  let (o, batch) := o.beginWrite o.batchSize
  if batch.isEmpty then ⟨o, script, [], none⟩
  else
    let (r, script) := nextReaction script
    let (o, w) := o.send batch r
    ⟨o, script, [w], r.failure⟩

/-- Writes at most `remaining` metrics batch by batch, up to the first failure.
Every batch holds a metric, so there are no more than `fuel` batches. -/
def writeLoop : Nat → Nat → Output → List Reaction → Flush
  | 0, _, o, script => ⟨o, script, [], none⟩
  | fuel + 1, remaining, o, script =>
    let (o, batch) := o.beginWrite (min o.batchSize remaining)
    if batch.isEmpty then ⟨o, script, [], none⟩
    else
      let (r, script) := nextReaction script
      let (o, w) := o.send batch r
      match r.failure with
      | some text => ⟨o, script, [w], some text⟩
      | none =>
        let f := writeLoop fuel (remaining - batch.length) o script
        { f with log := w :: f.log }

/-- Writes what is buffered now, batch by batch, up to the first failure. -/
def write (o : Output) (script : List Reaction) : Flush :=
  writeLoop o.buffer.size o.buffer.size o script

def Flush.error? (f : Flush) : Option OutputError :=
  f.failure.map fun text => .write f.output.name text

def reportOverflow (o : Output) : Output × Nat :=
  ({ o with reportedDrops := o.stats.dropped }, o.stats.dropped - o.reportedDrops)

@[simp] theorem addAll_nil (o : Output) : o.addAll [] = (o, []) := rfl

theorem batchSize_make_pos (s : OutputSettings) (maxBatch : Option Nat) :
    0 < (make s maxBatch).batchSize := by
  simp only [make]; omega

end Output

end MetricAgent
