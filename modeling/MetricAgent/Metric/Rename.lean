import MetricAgent.Metric.Basic

/-!
# Renaming metrics

A metric is renamed in one of two ways: it gets a name of its own, or texts
before and behind the one it has. The empty text stands for no change, and
with a name of its own the other two texts do not count.
-/

namespace MetricAgent

structure Rename where
  name : String
  before : String
  after : String
deriving DecidableEq, Repr

namespace Rename

def none : Rename := ⟨"", "", ""⟩

def apply (r : Rename) (m : Metric) : Metric :=
  if r.name = "" then (m.prepend r.before).append r.after else m.setName r.name

@[simp] theorem apply_none (m : Metric) : none.apply m = m := by
  simp [apply, none, Metric.prepend, Metric.append]

theorem name_apply (r : Rename) (m : Metric) :
    (r.apply m).name = if r.name = "" then r.before ++ m.name ++ r.after else r.name := by
  unfold apply
  split
  · rfl
  · next h => simp [Metric.setName, h]

end Rename

end MetricAgent
