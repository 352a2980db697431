import MetricAgent.Json.Writing
import MetricAgent.Text.Quoted

/-!
# The outline of a JSON value

What a reader has to know of a value that it does not expect: the value itself
if it is a scalar, the members if it is an object, and of a list nothing at
all. `describe` is how a message refers to it.
-/

namespace MetricAgent.Json

/-- A value, as far as messages about it need it. -/
inductive Outline where
  | null
  | bool (b : Bool)
  | integer (n : Int)
  | float (x : Binary64)
  | text (s : String)
  | list
  | object (members : List (String × Outline))
deriving Inhabited

def Outline.describe : Outline → String
  | .null => "null"
  | .bool b => "boolean `" ++ String.ofList (Json.bool b) ++ "`"
  | .integer n => "integer `" ++ toString n ++ "`"
  | .float x => "floating point `" ++ String.ofList (Json.float x) ++ "`"
  | .text s => "string " ++ Text.quoted s
  | .list => "sequence"
  | .object _ => "map"

end MetricAgent.Json
