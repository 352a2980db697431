/-!
# Classes of errors

Whoever handles an error decides by its class and not by its text. Only an
error of the configuration stops the agent; it can only arise before anything
runs. A failed write is tried again, and the other two classes are counted and
never raised.
-/

namespace MetricAgent

inductive ErrorClass where
  /-- A sink did not take a batch, which goes back to its buffer. -/
  | transientWrite
  /-- A full buffer dropped its oldest metrics. -/
  | overflow
  | filterReject
  | fatalConfig
deriving DecidableEq, Repr

namespace ErrorClass

def name : ErrorClass → String
  | .transientWrite => "transient_write"
  | .overflow => "overflow"
  | .filterReject => "filter_reject"
  | .fatalConfig => "fatal_config"

def isFatal (c : ErrorClass) : Bool := c == .fatalConfig

end ErrorClass

end MetricAgent
