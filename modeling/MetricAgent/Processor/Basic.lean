import MetricAgent.Metric.Rename

/-!
# Processors

A processor turns one metric into any number of metrics, without knowing of
any other metric. It may break down on a metric, which is not an error but the
absence of a result.
-/

namespace MetricAgent

/-- A processor: what it makes of a metric, `none` where it breaks down. -/
abbrev Processor := Metric → Option (List Metric)

namespace Processor

/-- What a processor yields; a breakdown yields nothing. -/
def yields (p : Processor) (m : Metric) : List Metric := (p m).getD []

def IsTotal (p : Processor) : Prop := ∀ m, (p m).isSome

/-- Makes a renamed copy with more tags, and leaves the metric behind it. -/
def copy (rename : Rename) (tags : List (String × String)) : Processor :=
  fun m => some [(rename.apply m).addTags tags, m]

/-- Removes tags and then sets others, which replace the values there are only
if `overwrite` says so. -/
def retag (set : List (String × String)) (remove : List String) (overwrite : Bool) : Processor :=
  fun m =>
    let m := remove.foldl Metric.removeTag m
    some [if overwrite then m.addTags set else m.addMissingTags set]

theorem isTotal_copy (rename : Rename) (tags : List (String × String)) :
    IsTotal (copy rename tags) := fun _ => rfl

theorem isTotal_retag (set : List (String × String)) (remove : List String) (overwrite : Bool) :
    IsTotal (retag set remove overwrite) := fun _ => rfl

end Processor

end MetricAgent
