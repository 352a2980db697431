/-!
# Tokens of YAML

The tokens of a text. Indentation shows as tokens that open and close block
collections, and a key shows as a token before it, although it is only known to
be a key when its colon comes.
-/

namespace MetricAgent.Yaml

inductive ScalarStyle where
  | plain
  | singleQuoted
  | doubleQuoted
  | literal
  | folded
deriving DecidableEq, Repr

/-- A token. Tags are kept as bytes, because escapes in them may stand for any. -/
inductive Token where
  | versionDirective (major minor : Nat)
  | tagDirective (handle : String) (stem : List UInt8)
  | documentStart
  | documentEnd
  | blockSequenceStart
  | blockMappingStart
  | blockEnd
  | flowSequenceStart
  | flowSequenceEnd
  | flowMappingStart
  | flowMappingEnd
  | blockEntry
  | flowEntry
  | key
  | value
  | reference (name : String)
  | anchor (name : String)
  /-- The handle of a tag and the bytes behind it. A verbatim tag has no handle. -/
  | tag (handle : String) (suffix : List UInt8)
  | scalar (style : ScalarStyle) (text : String)
deriving DecidableEq, Repr

/-- The tokens of a text. Where a text cannot be read on, they break off. -/
structure TokenStream where
  tokens : List Token
  complete : Bool
deriving DecidableEq, Repr

end MetricAgent.Yaml
