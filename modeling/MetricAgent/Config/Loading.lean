import MetricAgent.Config.Check
import MetricAgent.Config.Reading
import MetricAgent.Files.Basic
import MetricAgent.Text.Quoted

/-!
# Loading a configuration

A configuration is loaded from a file or from a directory. In a directory the
files with the extension `yaml` that are not hidden are fragments, which are
composed in the order of their names: lists of plugins are joined, and the
agent and the telemetry may each be defined in one of the files only. Each file
is composed with those before it as soon as it has been read. A composed
configuration is checked like one from a single file.
-/

namespace MetricAgent

inductive ConfigError where
  | unreadable (e : Yaml.ReadError)
  | violation (e : ConfigViolation)
  | noConfigFiles
  | conflictingAgent
  | conflictingTelemetry
  /-- Nothing is known about what a path leads to. -/
  | metadata
  | notText
  | notAFile (path : String)
deriving DecidableEq, Repr

namespace ConfigError

/-- The wording of an error, as far as it is worded here. -/
def message? : ConfigError → Option String
  | .violation e => some e.message
  | .conflictingAgent => some "agent cannot be defined in multiple config files"
  | .conflictingTelemetry => some "Telemetry cannot be defined in multiple config files"
  | .notAFile path => some ("Config path " ++ Text.quoted path ++ " is neither a file nor a directory")
  | .unreadable _ | .noConfigFiles | .metadata | .notText => none

def errorClass (_ : ConfigError) : ErrorClass := .fatalConfig

end ConfigError

namespace ConfigFragment

def merge (f g : ConfigFragment) : Except ConfigError ConfigFragment :=
  if f.agent.isSome ∧ g.agent.isSome then .error .conflictingAgent
  else if f.telemetry.isSome ∧ g.telemetry.isSome then .error .conflictingTelemetry
  else .ok
    { agent := f.agent <|> g.agent
      telemetry := f.telemetry <|> g.telemetry
      sources := f.sources ++ g.sources
      processors := f.processors ++ g.processors
      aggregators := f.aggregators ++ g.aggregators
      outputs := f.outputs ++ g.outputs }

def ofFile (content : List UInt8) : Except ConfigError ConfigFragment :=
  match Text.ofBytes? content with
  | none => .error .notText
  | some s => (ofText s).mapError .unreadable

def mergeFiles : ConfigFragment → List (List UInt8) → Except ConfigError ConfigFragment
  | f, [] => .ok f
  | f, content :: rest => do mergeFiles (← f.merge (← ofFile content)) rest

end ConfigFragment

namespace Config

def parse (s : String) : Except ConfigError Config := do
  let c ← (ofText s).mapError .unreadable
  c.check.mapError .violation
  return c

/-- Whether a file of a directory is one of the configuration: not hidden, and
with the extension `yaml`. -/
def isFragmentName (name : String) : Bool :=
  let cs := name.toList
  cs.head? != some '.' && ".yaml".toList.isSuffixOf cs

/-- The contents of those files of a directory that are fragments, in the order
of their names. -/
def fragmentFiles (entries : List (String × FileTree)) : List (List UInt8) :=
  let files := entries.filterMap fun (name, t) => match t with
    | .file content => if isFragmentName name then some (name, content) else none
    | _ => none
  (SortedPairs.ofList files).map Prod.snd

def ofDirectory (entries : List (String × FileTree)) : Except ConfigError Config :=
  match fragmentFiles entries with
  | [] => .error .noConfigFiles
  | content :: rest => do
    return (← (← ConfigFragment.ofFile content).mergeFiles rest).toConfig

/-- Loads the configuration that a path leads to. In a directory only those
entries count whose own paths lead to them, which are longer. -/
def load (files : Files) (path : String) : Except ConfigError Config :=
  match files.resolve path with
  | .error _ => .error .metadata
  | .ok (.file content) =>
    match Text.ofBytes? content with
    | none => .error .notText
    | some s => parse s
  | .ok (.directory entries) => do
    let found := entries.filter fun (name, _) => (files.resolve (Files.entryPath path name)).isOk
    let c ← ofDirectory found
    c.check.mapError .violation
    return c
  | .ok (.device _) => .error (.notAFile path)

end Config

end MetricAgent
