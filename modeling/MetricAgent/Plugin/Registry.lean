import MetricAgent.Plugin.Options
import MetricAgent.Text.Quoted

/-!
# The registry of plugins

A registry knows how plugins of four classes are made from their options. It is
consulted only while a pipeline is built. What is registered first under a name
is what the name means.
-/

namespace MetricAgent

inductive PluginClass where
  | source
  | output
  | processor
  | aggregator
deriving DecidableEq, Repr

def PluginClass.name : PluginClass → String
  | .source => "source"
  | .output => "output"
  | .processor => "processor"
  | .aggregator => "aggregator"

inductive PluginError where
  | unknown (cls : PluginClass) (name : String)
  | options (cls : PluginClass) (name : String) (failure : Options.Failure)
deriving DecidableEq, Repr

namespace PluginError

def message? : PluginError → Option String
  | .unknown cls name => some ("unknown " ++ cls.name ++ " plugin " ++ Text.quoted name)
  | .options cls name failure => failure.message?.map fun text =>
      "invalid options for " ++ cls.name ++ " plugin " ++ Text.quoted name ++ ": " ++ text

def errorClass (_ : PluginError) : ErrorClass := .fatalConfig

end PluginError

abbrev Factory (α : Type) := Yaml.Value → Except Options.Failure α

structure Registry where
  sources : List (String × Factory Source)
  sinks : List (String × Factory Sink)
  processors : List (String × Factory Processor)
  aggregators : List (String × Factory Aggregator)

namespace Registry

def empty : Registry := ⟨[], [], [], []⟩

def builtin : Registry where
  sources := [("constant", Options.constant)]
  sinks := [("discard", Options.discard), ("file", Options.file)]
  processors := [("clone", Options.copy), ("tags", Options.retag)]
  aggregators := [("merge", Options.merge), ("final", Options.final)]

def build {α : Type} (cls : PluginClass) (factories : List (String × Factory α)) (name : String)
    (options : Yaml.Value) : Except PluginError α :=
  match factories.lookup name with
  | none => .error (.unknown cls name)
  | some factory => (factory options).mapError (.options cls name)

def source (r : Registry) : String → Yaml.Value → Except PluginError Source :=
  build .source r.sources

def sink (r : Registry) : String → Yaml.Value → Except PluginError Sink :=
  build .output r.sinks

def processor (r : Registry) : String → Yaml.Value → Except PluginError Processor :=
  build .processor r.processors

def aggregator (r : Registry) : String → Yaml.Value → Except PluginError Aggregator :=
  build .aggregator r.aggregators

end Registry

end MetricAgent
