import MetricAgent.Program
import Std.Time.DateTime.Timestamp

/-!
# The command line program

What surrounds the program is looked up here, and what a run does at its sinks
is done here: a file sink appends lines to its file. All that is decided, from
the meaning of the arguments to the moment of a flush, is decided by `Program`
and `PipelineRun`, which are given the time and nothing else.
-/

namespace MetricAgent

def clockTime : IO Duration := do
  return Duration.ofNanos (← Std.Time.Timestamp.now).toNanosecondsSinceUnixEpoch.val.toNat

def pathOf (names : List String) : String := "/" ++ String.intercalate "/" names

/-- Looks up one place, and puts among the files what is there: a directory
without its entries, a device, or a file, with its content if that is wanted. -/
def lookUp (f : Files) (content : Bool) (names : List String) : IO Files := do
  let found ← try pure (some (← IO.FS.realPath (pathOf names))) catch _ => pure none
  let some place := found | return f
  let put (new : FileTree) : Files := { f with root := FileTree.put new names f.root }
  match (← place.metadata).type with
  | .dir => return if (f.root.get? names).isSome then f else put .empty
  | .file =>
    let bytes ← if content then IO.FS.readBinFile place else pure .empty
    return put (.file bytes.toList)
  | _ => return put (.device (place == "/dev/full"))

def stepInto (place : List String) (part : String) : List String :=
  if part = "" ∨ part = "." then place
  else if part = ".." then place.dropLast
  else place ++ [part]

def lookUpAlong (f : Files) (content : Bool) (path : String) : IO Files := do
  let visit (s : List String × Files) (part : String) : IO (List String × Files) := do
    let place := stepInto s.1 part
    return (place, ← lookUp s.2 content place)
  let start := f.start path
  let parts := Files.pathParts [] path.toList
  return (← parts.foldlM visit (start, ← lookUp f false start)).2

/-- Looks up a path, and if it leads to a directory what is in there. -/
def lookUpConfig (f : Files) (path : String) : IO Files := do
  let f ← lookUpAlong f true path
  match f.resolve path with
  | .ok (.directory _) =>
    let entries ← (← IO.FS.realPath path).readDir
    entries.foldlM (fun f e =>
      lookUpAlong f (Config.isFragmentName e.fileName) (Files.entryPath path e.fileName)) f
  | _ => return f

def lookUpSinks (s : Surroundings) (c : Config) : IO Surroundings :=
  c.outputs.foldlM (fun s o =>
    match Registry.builtin.sink o.plugin o.options with
    | .ok (.file f) => do return { s with files := ← lookUpAlong s.files false f.path }
    | _ => return s) s

/-- What the program finds around it, as far as a path leads there. -/
def lookAround (path : String) : IO Surroundings := do
  let parts := Files.pathParts [] (toString (← IO.currentDir)).toList
  let files : Files := ⟨.empty, parts.filter (· ≠ "")⟩
  let s : Surroundings := ⟨← IO.getEnv "PLUMB_CONFIG", files, ← clockTime⟩
  let s := { s with files := ← if s.config.isSome then pure files else lookUpConfig files path }
  match Program.config s path with
  | .ok c => lookUpSinks s c
  | .error _ => return s

/-- Does at a sink what a run has done at it, unless that was refused. -/
def perform (e : LogEntry) : IO Unit :=
  match e.sink, e.event with
  | .file f, .write w => do
    let text := String.ofList (f.writer.lines w.metrics)
    if w.failure.isSome then return ()
    else if f.isStandardOutput then
      IO.print text
      (← IO.getStdout).flush
    else (← IO.FS.Handle.mk f.path .append).putStr text
  | _, _ => return ()

partial def runOn (began : Nat) (r : PipelineRun) : IO Unit := do
  let time := (← IO.monoMsNow) - began
  let r := r.advance (Timestamp.ofDuration (← clockTime)) time
  r.log.forM perform
  let next := (PipelineRun.firstDue (PipelineRun.dues r.pipeline)).elim (time + 1000) Prod.fst
  IO.sleep (min 1000 (max 1 (next - time))).toUInt32
  runOn began { r with log := [] }

def usage : List String :=
  ["Usage: plumb <COMMAND>",
    "",
    "Commands:",
    "  run           Run plumb with specified configuration",
    "  config-check  Validate configuration and exit",
    "  help          Print this message",
    "",
    "Options:",
    "  -h, --help     Print help",
    "  -V, --version  Print version"]

def execute (c : Command) : IO UInt32 := do
  let path := match c with
    | .run path _ => path
    | .checkConfig path => path
  let s ← lookAround path
  match Program.exitCode? s (.command c), Program.start s path with
  | some code, _ => return code.toUInt32
  | none, .error e => return e.exitCode.toUInt32
  | none, .ok p =>
    runOn (← IO.monoMsNow) (PipelineRun.start p)
    return 0

end MetricAgent

open MetricAgent in
def main (args : List String) : IO UInt32 :=
  match CommandLine.read args with
  | .command c => execute c
  | .help => do
    usage.forM fun line => IO.println line
    return 0
  | .version => do
    IO.println "plumb 0.1.0"
    return 0
  | .wrong => do
    usage.forM fun line => IO.eprintln line
    return 2
