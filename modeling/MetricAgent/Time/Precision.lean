import MetricAgent.Time.Timestamp

/-!
# The precision of timestamps

Timestamps of gathered metrics are rounded down to a precision between one
nanosecond and one second. Where none is configured it follows from the time
between two gathers: the greatest of second, millisecond, microsecond and
nanosecond that is no longer.
-/

namespace MetricAgent

namespace Precision

/-- The precision that suits an interval; no interval at all asks for seconds. -/
def ofInterval (interval : Duration) : Duration :=
  if interval.isZero then Duration.ofSeconds 1
  else if Duration.ofSeconds 1 ≤ interval then Duration.ofSeconds 1
  else if Duration.ofMillis 1 ≤ interval then Duration.ofMillis 1
  else if Duration.ofNanos 1000 ≤ interval then Duration.ofNanos 1000
  else Duration.ofNanos 1

def bounded (precision : Duration) : Duration :=
  Duration.clamp (Duration.ofNanos 1) (Duration.ofSeconds 1) precision

end Precision

end MetricAgent
