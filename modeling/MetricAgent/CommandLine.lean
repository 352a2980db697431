/-!
# The command line

The agent has two commands: to run, and to check a configuration. Options are
written in full, with their value behind an equals sign or as the next
argument, and at most once. What asks for help or for the version is answered
as soon as it is reached, unless something wrong has come before it.
-/

namespace MetricAgent

inductive Command where
  /-- To run, and to wait at most some seconds for its end when it is stopped. -/
  | run (configPath : String) (maxShutdownDelay : Nat)
  | checkConfig (configPath : String)
deriving DecidableEq, Repr

inductive Invocation where
  | command (c : Command)
  /-- A text is to be shown and nothing to be done. -/
  | help
  | version
  | wrong
deriving DecidableEq, Repr

namespace CommandLine

def defaultConfigPath : String := "/etc/plumb/plumb.yaml"

def defaultShutdownDelay : Nat := 30

structure Options where
  configPath : Option String
  maxShutdownDelay : Option Nat

/-- A number of seconds in decimal digits, with or without a sign, that fits
into sixteen bits. -/
def delay? (s : String) : Option Nat :=
  let (minus, digits) := match s.toList with
    | '-' :: cs => (true, cs)
    | '+' :: cs => (false, cs)
    | cs => (false, cs)
  if digits.isEmpty ∨ !digits.all Char.isDigit then none
  else
    let n := digits.foldl (fun n c => n * 10 + (c.toNat - '0'.toNat)) 0
    if n < UInt16.size ∧ (!minus ∨ n = 0) then some n else none

/-- The name of a long option and the value behind its equals sign, if there is
one. -/
def longOption? (arg : String) : Option (String × Option String) :=
  match arg.toList with
  | '-' :: '-' :: cs =>
    let name := String.ofList (cs.takeWhile (· ≠ '='))
    match cs.dropWhile (· ≠ '=') with
    | '=' :: value => some (name, some (String.ofList value))
    | _ => some (name, none)
  | _ => none

/-- The letter of a short option, or the first one of several. -/
def shortOption? (arg : String) : Option Char :=
  match arg.toList with
  | '-' :: c :: _ => if c = '-' then none else some c
  | _ => none

/-- Whether an argument can be the value of an option: it is no option, not even
an unknown one. -/
def isValue (arg : String) : Bool := (longOption? arg).isNone && (shortOption? arg).isNone

/-- Sets an option that has not been set before. -/
def set? (withDelay : Bool) (o : Options) (name value : String) : Option Options :=
  if name = "config-path" then
    if o.configPath.isSome then none else some { o with configPath := some value }
  else if withDelay ∧ name = "max-shutdown-delay" then
    if o.maxShutdownDelay.isSome then none
    else (delay? value).map fun n => { o with maxShutdownDelay := some n }
  else none

/-- Reads the arguments of a command, where the value of an option may be
pending. -/
def readOptions (withDelay : Bool) (done : Options → Command) :
    Option String → Options → List String → Invocation
  | none, o, [] => .command (done o)
  | some _, _, [] => .wrong
  | some name, o, arg :: rest =>
    match if isValue arg then set? withDelay o name arg else none with
    | some o => readOptions withDelay done none o rest
    | none => .wrong
  | none, o, arg :: rest =>
    if arg = "--" then (if rest.isEmpty then .command (done o) else .wrong)
    else match longOption? arg, shortOption? arg with
      | some ("help", none), _ => .help
      | some (name, none), _ => readOptions withDelay done (some name) o rest
      | some (name, some value), _ =>
        match set? withDelay o name value with
        | some o => readOptions withDelay done none o rest
        | none => .wrong
      | none, some 'h' => .help
      | none, _ => .wrong

def commandNames : List String := ["run", "config-check", "help"]

def read : List String → Invocation
  | [] => .wrong
  | "help" :: names =>
    match names with
    | [] => .help
    | [name] => if commandNames.contains name then .help else .wrong
    | _ => .wrong
  | "run" :: rest =>
    readOptions true (fun o => .run (o.configPath.getD defaultConfigPath)
      (o.maxShutdownDelay.getD defaultShutdownDelay)) none ⟨none, none⟩ rest
  | "config-check" :: rest =>
    readOptions false (fun o => .checkConfig (o.configPath.getD defaultConfigPath)) none
      ⟨none, none⟩ rest
  | arg :: _ =>
    match longOption? arg, shortOption? arg with
    | some ("help", none), _ => .help
    | some ("version", none), _ => .version
    | none, some 'h' => .help
    | none, some 'V' => .version
    | _, _ => .wrong

end CommandLine

end MetricAgent
