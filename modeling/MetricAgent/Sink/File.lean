import MetricAgent.Files.Basic
import MetricAgent.Metric.JsonLine

/-!
# Files as sinks

A file sink appends metrics as lines to a file. It opens the file when it is
connected and lets it go when it is closed; in between it may be written to.
The path `-` stands for the standard output, which is always there.
-/

namespace MetricAgent

structure FileSink where
  path : String
  writer : LineWriter
  connected : Bool

namespace FileSink

inductive Failure where
  | notConnected
  | file (e : FileError)
deriving DecidableEq, Repr

def Failure.message : Failure → String
  | .notConnected => "file sink is not connected"
  | .file e => "IO error: " ++ e.message

/-- A file sink that is not connected. A unit that no writer can have is
refused. -/
def make? (path : String) (units : Option Duration) : Option FileSink :=
  (LineWriter.make? (units.getD Duration.zero)).map fun w => ⟨path, w, false⟩

def isStandardOutput (s : FileSink) : Bool := s.path == "-"

def append (s : FileSink) (files : Files) (bytes : List UInt8) : Except Failure Files :=
  if s.isStandardOutput then .ok files
  else (files.append s.path bytes).mapError .file

def connect (s : FileSink) (files : Files) : Except Failure (FileSink × Files) := do
  return ({ s with connected := true }, ← s.append files [])

def write (s : FileSink) (files : Files) (ms : List Metric) : Except Failure Files :=
  if s.connected then s.append files ((s.writer.lines ms).flatMap String.utf8EncodeChar)
  else .error .notConnected

/-- The words with which a sink refuses every line, if the file is one that
takes none. -/
def refusal? (s : FileSink) (files : Files) : Option String :=
  match s.append files [0x0a] with
  | .ok _ => none
  | .error e => some e.message

def close (s : FileSink) : FileSink := { s with connected := false }

end FileSink

end MetricAgent
