import Mathlib.Algebra.Group.Nat.Defs
import Mathlib.Data.Nat.Log
import MetricAgent.Metric.JsonLine

/-!
# The search for the unit

A writer's unit is searched for among the powers of ten, from one nanosecond on. A
candidate is kept when the power after it is longer than what is requested, so the search
looks one power further than it gets, and breaks down where that one is no duration
(`LineWriter.SearchEnds`).

Either way it has come to the greatest power of ten that is no longer than the request
(`LineWriter.SearchEnds.exists_last`), and there is only one such power, which is a
logarithm (`LineWriter.eq_pow_log_iff`). The last power that is a duration is `10 ^ 28`
nanoseconds, and it is the only one whose next power is none. So a search finds its unit
for a request below `10 ^ 19` seconds, and breaks down for all others
(`LineWriter.unit_found_unless_overflow`).
-/

namespace MetricAgent

namespace LineWriter

/-- The search from a candidate on ends with a unit, or with none because the power
that it looks at is no duration. -/
inductive SearchEnds (requested : Duration) : Duration → Option Duration → Prop
  | found {candidate next : Duration} (hnext : Duration.mul? 10 candidate = some next)
      (h : requested < next) : SearchEnds requested candidate (some candidate)
  | further {candidate next : Duration} {r : Option Duration}
      (hnext : Duration.mul? 10 candidate = some next) (h : next ≤ requested)
      (rest : SearchEnds requested next r) : SearchEnds requested candidate r
  | overflow {candidate : Duration} (h : Duration.mul? 10 candidate = none) :
      SearchEnds requested candidate none

variable {requested candidate next : Duration} {r : Option Duration}

/-- A power of ten that the search gets to. -/
structure Candidate (requested candidate : Duration) : Prop where
  power : ∃ k, candidate.nanos = 10 ^ k
  le : candidate ≤ requested

theorem Candidate.step (h : Candidate requested candidate)
    (hnext : Duration.mul? 10 candidate = some next) (hle : next ≤ requested) :
    Candidate requested next := by
  obtain ⟨k, hk⟩ := h.power
  refine ⟨⟨k + 1, ?_⟩, hle⟩
  rw [Duration.ofNanos?_eq_some_iff.1 hnext, hk, Nat.pow_succ, Nat.mul_comm]

/-- The search ends at the greatest power of ten that is no longer than the request. That
is the unit if the power after it is a duration. -/
theorem SearchEnds.exists_last (h : SearchEnds requested candidate r)
    (hc : Candidate requested candidate) :
    ∃ last, Candidate requested last ∧ requested.nanos < 10 * last.nanos ∧
      r = (Duration.mul? 10 last).map fun _ => last := by
  induction h with
  | @found candidate next hnext hlt =>
      have hlt : requested.nanos < next.nanos := hlt
      rw [Duration.ofNanos?_eq_some_iff.1 hnext] at hlt
      exact ⟨candidate, hc, hlt, by rw [hnext, Option.map_some]⟩
  | further hnext hle _ ih => exact ih (hc.step hnext hle)
  | @overflow candidate hnone =>
      have hlimit := Duration.ofNanos?_eq_none_iff.1 hnone
      exact ⟨candidate, hc, Nat.lt_of_lt_of_le requested.lt_limit hlimit,
        by rw [hnone, Option.map_none]⟩

/-- There are steps enough for the search where as many powers lead past all durations. -/
theorem searchEnds_powerOfTen {steps : Nat}
    (h : UInt64.size * 1000000000 ≤ 10 ^ steps * candidate.nanos) :
    SearchEnds requested candidate (powerOfTen requested steps candidate) := by
  induction steps generalizing candidate with
  | zero => exact absurd candidate.lt_limit (by omega)
  | succ steps ih =>
      unfold powerOfTen
      cases hnext : Duration.mul? 10 candidate with
      | none => exact .overflow hnext
      | some next =>
          change SearchEnds requested candidate
            (if next ≤ requested then powerOfTen requested steps next else some candidate)
          split
          · next hle =>
            refine .further hnext hle (ih ?_)
            rw [Duration.ofNanos?_eq_some_iff.1 hnext, ← Nat.mul_assoc]
            exact h
          · next hlt => exact .found hnext (Nat.lt_of_not_le hlt)

/-- The greatest power of ten up to a number. -/
theorem eq_pow_log_iff {x y : Nat} (hx : 0 < x) :
    (∃ k, y = 10 ^ k) ∧ y ≤ x ∧ x < 10 * y ↔ y = 10 ^ Nat.log 10 x := by
  have hten : 1 < 10 := by decide
  constructor
  · rintro ⟨⟨k, rfl⟩, hle, hlt⟩
    rw [Nat.mul_comm] at hlt
    rw [(Nat.log_eq_iff (.inr ⟨hten, Nat.ne_of_gt hx⟩)).2 ⟨hle, hlt⟩]
  · rintro rfl
    refine ⟨⟨_, rfl⟩, Nat.pow_log_le_self 10 (Nat.ne_of_gt hx), ?_⟩
    rw [Nat.mul_comm]
    exact Nat.lt_pow_succ_log_self hten x

/-- The power after it is a duration for numbers of at most 28 digits. -/
theorem ten_mul_pow_log_lt_iff {x : Nat} (hx : 0 < x) :
    10 * 10 ^ Nat.log 10 x < UInt64.size * 1000000000 ↔ x < 10 ^ 28 := by
  have hten : 1 < 10 := by decide
  rw [← Nat.log_lt_iff_lt_pow hten (Nat.ne_of_gt hx)]
  have hsize : UInt64.size = 18446744073709551616 := rfl
  constructor
  · intro hlt
    by_contra hle
    have hpow : 10 ^ 28 ≤ 10 ^ Nat.log 10 x := Nat.pow_le_pow_right (by decide) (by omega)
    omega
  · intro hlt
    have hpow : 10 ^ Nat.log 10 x ≤ 10 ^ 27 := Nat.pow_le_pow_right (by decide) (by omega)
    omega

theorem searchEnds_nanosecond (requested : Duration) : SearchEnds requested
    (Duration.ofNanos 1) (powerOfTen requested 29 (Duration.ofNanos 1)) :=
  searchEnds_powerOfTen (by decide)

/-- An end of the search from one nanosecond on is fixed by what is requested. -/
theorem SearchEnds.eq_ite (h : SearchEnds requested (Duration.ofNanos 1) r)
    (hpos : 0 < requested.nanos) :
    ∃ last : Duration, last.nanos = 10 ^ Nat.log 10 requested.nanos ∧
      r = if requested.nanos < 10 ^ 28 then some last else none := by
  obtain ⟨last, ⟨hpower, hle⟩, hlt, rfl⟩ := h.exists_last ⟨⟨0, rfl⟩, hpos⟩
  have hlast := (eq_pow_log_iff hpos).1 ⟨hpower, hle, hlt⟩
  have hlimit := ten_mul_pow_log_lt_iff hpos
  rw [← hlast] at hlimit
  refine ⟨last, hlast, ?_⟩
  unfold Duration.mul? Duration.ofNanos?
  split
  · next hin => rw [if_pos (hlimit.1 hin), Option.map_some]
  · next hout => rw [if_neg (mt hlimit.2 hout), Option.map_none]

theorem exists_searchEnds_iff (hpos : 0 < requested.nanos) :
    ∃ last : Duration, last.nanos = 10 ^ Nat.log 10 requested.nanos ∧
      ∀ r, SearchEnds requested (Duration.ofNanos 1) r ↔
        r = if requested.nanos < 10 ^ 28 then some last else none := by
  have hsearch := searchEnds_nanosecond requested
  obtain ⟨last, hlast, hresult⟩ := hsearch.eq_ite hpos
  refine ⟨last, hlast, fun r => ⟨fun h => ?_, ?_⟩⟩
  · obtain ⟨last', hlast', rfl⟩ := h.eq_ite hpos
    rw [Duration.ext (hlast'.trans hlast.symm)]
  · rintro rfl
    exact hresult ▸ hsearch

/-- Below `10 ^ 19` seconds the search for the unit ends in the one power of ten that is
no longer than the request, while ten times as much is. From there on it breaks down, and
there is no writer. No length at all asks for seconds. -/
theorem unit_found_unless_overflow (requested : Duration) :
    (requested.nanos = 0 → make? requested = some ⟨Duration.ofSeconds 1⟩) ∧
    (0 < requested.nanos → requested < Duration.ofSeconds (10 ^ 19) →
      ∃ unit : Duration, make? requested = some ⟨unit⟩ ∧
        (∀ r, SearchEnds requested (Duration.ofNanos 1) r ↔ r = some unit) ∧
        ∀ n, (∃ k, n = 10 ^ k) ∧ n ≤ requested.nanos ∧ requested.nanos < 10 * n ↔
          n = unit.nanos) ∧
    (Duration.ofSeconds (10 ^ 19) ≤ requested →
      make? requested = none ∧
        ∀ r, SearchEnds requested (Duration.ofNanos 1) r ↔ r = none) := by
  have hbound : (Duration.ofSeconds (10 ^ 19)).nanos = 10 ^ 28 :=
    Duration.nanos_ofNanos (by decide)
  have hmake : 0 < requested.nanos →
      make? requested = (powerOfTen requested 29 (Duration.ofNanos 1)).map LineWriter.mk := by
    intro hpos
    rw [make?, Duration.isZero_eq_false_iff.2 hpos]
    rfl
  have hsearch := searchEnds_nanosecond requested
  refine ⟨fun hzero => ?_, fun hpos hlt => ?_, fun hle => ?_⟩
  · have hisZero : requested.isZero = true := beq_iff_eq.2 hzero
    rw [make?, if_pos hisZero]
  · obtain ⟨unit, hunit, hends⟩ := exists_searchEnds_iff hpos
    have hlt : requested.nanos < 10 ^ 28 := hbound ▸ hlt
    rw [if_pos hlt] at hends
    refine ⟨unit, ?_, hends, fun n => ?_⟩
    · rw [hmake hpos, (hends _).1 hsearch, Option.map_some]
    · rw [hunit, eq_pow_log_iff hpos]
  · have hle : 10 ^ 28 ≤ requested.nanos := hbound ▸ hle
    have hpos : 0 < requested.nanos := Nat.lt_of_lt_of_le (by decide) hle
    obtain ⟨unit, -, hends⟩ := exists_searchEnds_iff hpos
    rw [if_neg (Nat.not_lt.2 hle)] at hends
    exact ⟨by rw [hmake hpos, (hends _).1 hsearch, Option.map_none], hends⟩

/-- A nanosecond less than `10 ^ 19` seconds has a unit, which is a tenth of them. They
themselves have none, though they are a power of ten. -/
theorem unit_found_unless_overflow_limit :
    let limit := Duration.ofSeconds (10 ^ 19)
    (∃ unit : Duration, make? (limit.sub (Duration.ofNanos 1)) = some ⟨unit⟩ ∧
      unit.nanos = 10 ^ 27) ∧
    limit.nanos = 10 ^ 28 ∧ make? limit = none := by
  intro limit
  have hlimit : limit.nanos = 10 ^ 28 := Duration.nanos_ofNanos (by decide)
  obtain ⟨-, hfound, -⟩ := unit_found_unless_overflow (limit.sub (Duration.ofNanos 1))
  obtain ⟨unit, hmake, -, hunit⟩ := hfound (by decide) (by decide)
  obtain ⟨-, -, hoverflow⟩ := unit_found_unless_overflow limit
  refine ⟨⟨unit, hmake, ((hunit _).1 ⟨⟨27, rfl⟩, by decide, by decide⟩).symm⟩, hlimit, ?_⟩
  exact (hoverflow (Nat.le_refl _)).1

end LineWriter

end MetricAgent
