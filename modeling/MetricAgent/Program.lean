import MetricAgent.CommandLine
import MetricAgent.Pipeline.Run

/-!
# The program

The program takes its configuration from its surroundings: the text of a
variable, if that is set, and else what a path leads to. A configuration is
valid if a pipeline can be built from it. A pipeline that runs ends by itself
only if a sink cannot be connected.
-/

namespace MetricAgent

structure Surroundings where
  /-- The configuration that overrides any path. -/
  config : Option String
  files : Files
  now : Duration

inductive ProgramError where
  | config (e : ConfigError)
  | build (e : BuildError)
  | output (e : OutputError)

namespace ConfigError

/-- Whether an error is no refusal but a breakdown. -/
def isBreakdown (e : ConfigError) : Bool := e == .unreadable .overflowingCarry

end ConfigError

namespace PluginError

def isBreakdown : PluginError → Bool
  | .options _ _ e => e == .unreadable .overflowingCarry || e == .unitTooLong
  | .unknown .. => false

end PluginError

namespace BuildError

def isBreakdown : BuildError → Bool
  | .plugin e => e.isBreakdown
  | _ => false

end BuildError

namespace ProgramError

def isBreakdown : ProgramError → Bool
  | .config e => e.isBreakdown
  | .build e => e.isBreakdown
  | .output _ => false

def exitCode (e : ProgramError) : Nat := if e.isBreakdown then 101 else 1

end ProgramError

namespace Program

def config (s : Surroundings) (path : String) : Except ProgramError Config :=
  (match s.config with
    | some text => Config.parse text
    | none => Config.load s.files path).mapError .config

def pipeline (s : Surroundings) (path : String) : Except ProgramError Pipeline := do
  let c ← config s path
  (Pipeline.build c .builtin s.files s.now).mapError .build

def start (s : Surroundings) (path : String) : Except ProgramError Pipeline := do
  let p ← pipeline s path
  match (PipelineRun.connectAll [] p.outlets).2 with
  | some e => throw (.output e)
  | none => return p

/-- The status with which an invocation ends, if it ends by itself. -/
def exitCode? (s : Surroundings) : Invocation → Option Nat
  | .help => some 0
  | .version => some 0
  | .wrong => some 2
  | .command (.checkConfig path) =>
    match pipeline s path with
    | .ok _ => some 0
    | .error e => some e.exitCode
  | .command (.run path _) =>
    match start s path with
    | .ok _ => none
    | .error e => some e.exitCode

end Program

end MetricAgent
