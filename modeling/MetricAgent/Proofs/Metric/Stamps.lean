import MetricAgent.Metric.JsonLine
import MetricAgent.Proofs.Json.Framing

/-!
# The timestamp of a line

A line ends with its timestamp, so the count that it gives can be read off its
end (`LineWriter.Stamps`), and there is only one.

The count is the timestamp divided by the unit and rounded down, but the unit is
cut off where timestamps end. A longer unit lies beyond all timestamps, and the
quotient is the same for all of them but the earliest and the latest, where the
cut shows (`LineWriter.stamp_floor_iff`).
-/

namespace MetricAgent

theorem Json.suffix_members_concat (ms : List (String × List Char)) (key : String)
    (value : List Char) : string key ++ ':' :: value <:+ members (ms ++ [(key, value)]) := by
  induction ms with
  | nil => exact List.suffix_refl _
  | cons m ms ih =>
      obtain ⟨k, v⟩ := m
      obtain ⟨n, rest, hrest⟩ := List.exists_cons_of_ne_nil (List.concat_ne_nil (key, value) ms)
      rw [List.cons_append, hrest, members_cons_cons, ← hrest]
      exact ih.trans ((List.suffix_cons _ _).trans (List.suffix_append _ _))

namespace LineWriter

open Timestamp (minNanos maxNanos)

variable {w : LineWriter} {m : Metric} {t : Timestamp} {q : Int}

/-- A line ends with a count as its timestamp. -/
def Stamps (line : List Char) (q : Int) : Prop :=
  Json.string "timestamp" ++ ':' :: Json.integer q ++ ['\x7d'] <:+ line

theorem stamps_line (w : LineWriter) (m : Metric) : Stamps (w.line m) (w.time m.timestamp) :=
  List.suffix_append_self_iff.2
    ((Json.suffix_members_concat [_, _, _] _ _).trans (List.suffix_cons _ _))

/-- What stands between the last colon and the end is the count. -/
theorem Stamps.takeWhile_eq {line : List Char} (h : Stamps line q) :
    line.reverse.tail.takeWhile (· != ':') = (Json.integer q).reverse := by
  obtain ⟨before, rfl⟩ := h
  have hdigits : ∀ c ∈ (Json.integer q).reverse, (c != ':') = true := by
    intro c hc
    refine bne_iff_ne.2 ?_
    rintro rfl
    exact absurd (Json.isNumberChar_integer q _ (List.mem_reverse.1 hc)) (by decide)
  simp only [List.reverse_append, List.reverse_cons, List.reverse_nil, List.nil_append,
    List.cons_append, List.tail_cons, List.append_assoc]
  rw [List.takeWhile_append_of_pos hdigits, List.takeWhile_cons_of_neg (by decide),
    List.append_nil]

theorem Stamps.unique {line : List Char} {p : Int} (hp : Stamps line p) (hq : Stamps line q) :
    p = q :=
  Json.integer_injective (List.reverse_inj.1 (hp.takeWhile_eq.symm.trans hq.takeWhile_eq))

/-! ### Units -/

theorem powerOfTen_pos {requested candidate unit : Duration} {fuel : Nat}
    (hpos : 0 < candidate.nanos) (h : powerOfTen requested fuel candidate = some unit) :
    0 < unit.nanos := by
  induction fuel generalizing candidate with
  | zero =>
      cases h
      exact hpos
  | succ fuel ih =>
      obtain ⟨next, hnext, h⟩ := Option.bind_eq_some_iff.1 h
      split at h
      · refine ih ?_ h
        rw [Duration.ofNanos?_eq_some_iff.1 hnext]
        exact Nat.mul_pos (by decide) hpos
      · cases h
        exact hpos

theorem unit_pos {requested : Duration} (h : make? requested = some w) : 0 < w.unit.nanos := by
  unfold make? at h
  split at h
  · cases h
    decide
  · obtain ⟨unit, hunit, rfl⟩ := Option.map_eq_some_iff.1 h
    exact powerOfTen_pos (by decide) hunit

/-! ### Rounding down -/

/-- A count of units is what a timestamp comes to, rounded down. -/
def IsFloor (q : Int) (t : Timestamp) (unit : Duration) : Prop :=
  q * unit.nanos ≤ t.nanos ∧ t.nanos < (q + 1) * unit.nanos

theorem isFloor_of_le (hpos : 0 < w.unit.nanos) (hle : (w.unit.nanos : Int) ≤ maxNanos) :
    IsFloor (w.time t) t w.unit := by
  have hspan : Timestamp.span w.unit = w.unit.nanos := Int.min_eq_left hle
  rw [time, hspan]
  exact ⟨Int.ediv_mul_le _ (by omega), Int.lt_ediv_add_one_mul_self _ (by omega)⟩

/-- For a unit that is cut off, the count says no more than where the timestamp
lies. -/
theorem time_of_lt (hlt : maxNanos < w.unit.nanos) :
    w.time t = if t.nanos = maxNanos then 1 else if 0 ≤ t.nanos then 0
      else if t.nanos = minNanos then -2 else -1 := by
  have hspan : Timestamp.span w.unit = 0x7fffffffffffffff :=
    Int.min_eq_right (Int.le_of_lt hlt)
  have hends : maxNanos = 0x7fffffffffffffff ∧ minNanos = -0x8000000000000000 := ⟨rfl, rfl⟩
  have hlow := t.min_le
  have hhigh := t.le_max
  rw [time, hspan]
  split
  · omega
  · split
    · omega
    · split <;> omega

theorem isFloor_iff_of_lt (hlt : maxNanos < w.unit.nanos) :
    IsFloor (w.time t) t w.unit ↔ minNanos < t.nanos ∧ t.nanos < maxNanos := by
  have hlow := t.min_le
  have hhigh := t.le_max
  have hends : maxNanos = 0x7fffffffffffffff ∧ minNanos = -0x8000000000000000 := ⟨rfl, rfl⟩
  unfold IsFloor
  rw [time_of_lt hlt]
  split
  · omega
  · split
    · omega
    · split <;> omega

/-- The line of a metric gives one count of units. It is the timestamp rounded
down unless the unit is cut off and the timestamp is one of the two at the ends,
which are counted a unit too far away from the epoch. -/
theorem stamp_floor_iff {requested : Duration} (hw : make? requested = some w) (m : Metric) :
    ∃ q, (∀ p, Stamps (w.line m) p ↔ p = q) ∧
      (IsFloor q m.timestamp w.unit ↔ (w.unit.nanos : Int) ≤ maxNanos ∨
        minNanos < m.timestamp.nanos ∧ m.timestamp.nanos < maxNanos) ∧
      (maxNanos < w.unit.nanos →
        (m.timestamp.nanos = maxNanos → q = 1) ∧ (m.timestamp.nanos = minNanos → q = -2)) := by
  have hstamps : ∀ p, Stamps (w.line m) p ↔ p = w.time m.timestamp := by
    refine fun p => ⟨fun h => h.unique (stamps_line w m), ?_⟩
    rintro rfl
    exact stamps_line w m
  refine ⟨w.time m.timestamp, hstamps, ?_, fun hlt => ⟨fun hlast => ?_, fun hfirst => ?_⟩⟩
  · rcases Int.lt_or_le maxNanos w.unit.nanos with hlt | hle
    · rw [isFloor_iff_of_lt hlt, or_iff_right (Int.not_le.2 hlt)]
    · exact iff_of_true (isFloor_of_le (unit_pos hw) hle) (.inl hle)
  · rw [time_of_lt hlt, if_pos hlast]
  · rw [time_of_lt hlt, hfirst]
    rfl

/-- A moment before the epoch, in milliseconds. -/
theorem stamp_floor_iff_before_epoch :
    make? (Duration.ofMillis 5) = some ⟨Duration.ofMillis 1⟩ ∧
      ∃ q, (∀ p, Stamps (line ⟨Duration.ofMillis 1⟩
          ⟨"m", [], [("v", .int 1)], .saturate (-1), .untyped⟩) p ↔ p = q) ∧
        IsFloor q (.saturate (-1)) (Duration.ofMillis 1) := by
  have hmade : make? (Duration.ofMillis 5) = some ⟨Duration.ofMillis 1⟩ := by decide +kernel
  obtain ⟨q, hstamps, hfloor, -⟩ :=
    stamp_floor_iff hmade ⟨"m", [], [("v", .int 1)], .saturate (-1), .untyped⟩
  exact ⟨hmade, q, hstamps, hfloor.2 (.inl (by decide))⟩

/-- In units of `10 ^ 10` seconds the latest timestamp is counted as one unit,
which it does not come to. -/
theorem latest_counted_as_unit :
    ¬ ∀ (requested : Duration) (w : LineWriter) (m : Metric) (q : Int),
        make? requested = some w → Stamps (w.line m) q → IsFloor q m.timestamp w.unit := by
  intro h
  have hmade : make? (Duration.ofSeconds 10000000000) = some ⟨Duration.ofSeconds 10000000000⟩ := by
    decide +kernel
  have hfloor := h _ _ ⟨"m", [], [("v", .int 1)], .saturate maxNanos, .untyped⟩ _ hmade
    (stamps_line _ _)
  exact absurd hfloor.1 (by decide +kernel)

end LineWriter
end MetricAgent
