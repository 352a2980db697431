import MetricAgent.Metric.JsonLine
import MetricAgent.Proofs.Json.Documents
import MetricAgent.Proofs.Json.Framing
import MetricAgent.Proofs.Metric.Tags
import MetricAgent.Proofs.Text.SortedPairs

/-!
# Lines read back

Lines of metrics can be told apart, as each metric gives one, and each can be read
back (`LineWriter.lines_read_back`): what comes back is the name, the tags and the
fields, without the infinite and undefined numbers. A reader of JSON need not read
a number as the one it was written for, which `Json.ReadsBack` says of one; that is
the only thing that can go wrong.
-/

namespace MetricAgent

namespace FieldValue

def scalar : FieldValue → Json.Scalar
  | .int n => .ofInt n.toInt
  | .uint n => .natural n.toNat
  | .float x => .float x
  | .bool b => .bool b
  | .text s => .text s

/-- What a value is when it has been written and read back: an unsigned word
below `2 ^ 63` comes back as a signed one. -/
def readBack : FieldValue → FieldValue
  | .uint n => if n.toNat < 0x8000000000000000 then .int (Int64.ofNat n.toNat) else .uint n
  | v => v

/-- What comes back is a value of the same kind, or the same integer. -/
theorem eq_readBack_or (v : FieldValue) : v.readBack = v ∨
    ∃ n i, v = .uint n ∧ v.readBack = .int i ∧ n.toNat < 0x8000000000000000 ∧ i.toInt = n.toNat := by
  cases v with
  | uint n =>
      by_cases h : n.toNat < 0x8000000000000000
      · exact .inr ⟨n, _, rfl, if_pos h, h, Int64.toInt_ofNat_of_lt h⟩
      · exact .inl (if_neg h)
  | int n => exact .inl rfl
  | float x => exact .inl rfl
  | bool b => exact .inl rfl
  | text s => exact .inl rfl

/-- Every value but a floating-point number is read back, and that may be. -/
def ReadsBack : FieldValue → Prop
  | .float x => Json.ReadsBack x
  | _ => True

theorem ofScalar?_ofInt (n : Int64) : ofScalar? (.ofInt n.toInt) = some (.int n) := by
  unfold Json.Scalar.ofInt
  split
  · exact congrArg (fun n => some (FieldValue.int n)) (Int64.ofInt_toInt n)
  · next hneg =>
    have hnonneg : ((n.toInt.toNat : Nat) : Int) = n.toInt := Int.toNat_of_nonneg (Int.not_lt.1 hneg)
    have hfits : n.toInt.toNat < 0x8000000000000000 := by
      have hlt := Int64.toInt_lt n
      omega
    have hsame : Int64.ofNat n.toInt.toNat = n := by
      rw [← Int64.ofInt_eq_ofNat, hnonneg, Int64.ofInt_toInt]
    rw [ofScalar?, ofNat, if_pos hfits, hsame]

theorem ofScalar?_scalar (v : FieldValue) : ofScalar? v.scalar = some v.readBack := by
  cases v with
  | int n => exact ofScalar?_ofInt n
  | uint n =>
      have hsame : UInt64.ofNat n.toNat = n := UInt64.ofNat_toNat
      rw [scalar, ofScalar?, ofNat, hsame]
      rfl
  | float x => rfl
  | bool b => rfl
  | text s => rfl

theorem written_json {v : FieldValue} (h : v.ReadsBack) : Json.Written v.json (.scalar v.scalar) := by
  refine .scalar fun rest hrest => ?_
  cases v with
  | int n =>
      have hlt : n.toInt < 0x10000000000000000 := by
        have hlt := Int64.toInt_lt n
        omega
      exact Json.scalarAt?_integer hrest (Int64.le_toInt n) hlt
  | uint n =>
      have hlow : -0x8000000000000000 ≤ (n.toNat : Int) := by omega
      have hhigh : (n.toNat : Int) < 0x10000000000000000 := by
        have hlt := n.toNat_lt
        omega
      have hnatural : Json.Scalar.ofInt n.toNat = .natural n.toNat := by
        rw [Json.Scalar.ofInt, if_neg (by omega), Int.toNat_natCast]
      have hread := Json.scalarAt?_integer hrest hlow hhigh
      rwa [hnatural] at hread
  | float x => exact h.scalarAt?_append hrest
  | bool b => exact Json.scalarAt?_bool b rest
  | text s => exact Json.scalarAt?_string s rest

theorem newline_not_mem_json (v : FieldValue) : '\n' ∉ v.json := by
  cases v with
  | int n => exact Json.newline_not_mem_integer _
  | uint n => exact Json.newline_not_mem_integer _
  | float x => exact Json.newline_not_mem_float x
  | bool b => exact Json.newline_not_mem_bool b
  | text s => exact Json.newline_not_mem_string s

end FieldValue

/-- What a line says about a metric. -/
structure LineRecord where
  name : String
  tags : List (String × String)
  fields : List (String × FieldValue)
  time : Int

namespace Json.Value

def member? (key : String) : Value → Option Value
  | .object ms => ms.lookup key
  | _ => none

/-- The members of an object, with values that are read in a certain way. -/
def map? {α : Type} (read : Value → Option α) : Value → Option (List (String × α))
  | .object ms => ms.mapM fun m => (read m.2).map fun v => (m.1, v)
  | _ => none

theorem map?_object {α β : Type} (read : Value → Option β) (value : α → Value) (f : α → β)
    (h : ∀ a, read (value a) = some (f a)) (pairs : List (String × α)) :
    map? read (.object (pairs.map fun p => (p.1, value p.2))) =
      some (pairs.map fun p => (p.1, f p.2)) := by
  rw [map?, List.mapM_map]
  induction pairs with
  | nil => rfl
  | cons p pairs ih =>
      rw [List.mapM_cons, ih]
      simp [h]

def text? : Value → Option String
  | .scalar (.text s) => some s
  | _ => none

def integer? : Value → Option Int
  | .scalar (.natural n) => some n
  | .scalar (.negative n) => some n
  | _ => none

def fieldValue? : Value → Option FieldValue
  | .scalar v => FieldValue.ofScalar? v
  | _ => none

end Json.Value

def LineRecord.ofLine? (cs : List Char) : Option LineRecord := do
  let v ← Json.document? cs
  return {
    name := ← (← v.member? "name").text?
    tags := ← (← v.member? "tags").map? Json.Value.text?
    fields := ← (← v.member? "fields").map? Json.Value.fieldValue?
    time := ← (← v.member? "timestamp").integer? }

namespace LineWriter

variable {w : LineWriter} {m : Metric}

theorem newline_not_mem_line (w : LineWriter) (m : Metric) : '\n' ∉ w.line m := by
  refine Json.newline_not_mem_object ?_
  simp only [List.forall_mem_cons, List.not_mem_nil, false_imp_iff, implies_true, and_true]
  refine ⟨Json.newline_not_mem_string _, ?_, ?_, Json.newline_not_mem_integer _⟩
  · refine Json.newline_not_mem_object ?_
    simp only [List.forall_mem_map]
    exact fun t _ => Json.newline_not_mem_string t.2
  · refine Json.newline_not_mem_object ?_
    simp only [List.forall_mem_map]
    exact fun f _ => f.2.newline_not_mem_json

/-- The timestamp is a word in any unit. -/
theorem time_bounds (w : LineWriter) (t : Timestamp) :
    -0x8000000000000000 ≤ w.time t ∧ w.time t < 0x10000000000000000 := by
  have hlow := t.min_le
  have hhigh := t.le_max
  have hspan : 0 ≤ Timestamp.span w.unit := by
    unfold Timestamp.span
    omega
  have habs : (w.time t).natAbs ≤ t.nanos.natAbs := Int.natAbs_ediv_le_natAbs t.nanos (Timestamp.span w.unit)
  omega

/-- The line of a metric is an object with all that is written of it. -/
theorem document?_line (w : LineWriter) (h : ∀ f ∈ m.fields, f.2.isNonFinite = false → f.2.ReadsBack) :
    Json.document? (w.line m) = some (.object [
      ("name", .scalar (.text m.name)),
      ("tags", .object ((SortedPairs.ofList m.tags).map fun t => (t.1, .scalar (.text t.2)))),
      ("fields", .object ((SortedPairs.ofList (m.fields.filter fun f => !f.2.isNonFinite)).map
        fun f => (f.1, .scalar f.2.scalar))),
      ("timestamp", .scalar (.ofInt (w.time m.timestamp)))]) := by
  have hstring : ∀ s, Json.Written (Json.string s) (.scalar (.text s)) :=
    fun s => .scalar fun rest _ => Json.scalarAt?_string s rest
  have hfinite : ∀ f ∈ SortedPairs.ofList (m.fields.filter fun f => !f.2.isNonFinite),
      f.2.ReadsBack := by
    intro f hf
    obtain ⟨hmem, hkept⟩ := List.mem_filter.1 (SortedPairs.mem_of_mem_ofList hf)
    exact h f hmem (Bool.not_eq_true' _ ▸ hkept)
  refine Json.Written.document? (.object ?_)
  refine .cons ⟨rfl, hstring _⟩ (.cons ⟨rfl, ?_⟩ (.cons ⟨rfl, ?_⟩ (.cons ⟨rfl, ?_⟩ .nil)))
  · exact .object_map Json.string (fun s => .scalar (.text s)) fun t _ => hstring t.2
  · exact .object_map FieldValue.json (fun v => .scalar v.scalar) fun f hf =>
      FieldValue.written_json (hfinite f hf)
  · exact .scalar fun rest hrest =>
      Json.scalarAt?_integer hrest (w.time_bounds _).1 (w.time_bounds _).2

theorem ofLine?_line (w : LineWriter)
    (h : ∀ f ∈ m.fields, f.2.isNonFinite = false → f.2.ReadsBack) :
    LineRecord.ofLine? (w.line m) = some {
      name := m.name
      tags := SortedPairs.ofList m.tags
      fields := (SortedPairs.ofList (m.fields.filter fun f => !f.2.isNonFinite)).map
        fun f => (f.1, f.2.readBack)
      time := w.time m.timestamp } := by
  have htime : Json.Value.integer? (.scalar (.ofInt (w.time m.timestamp))) =
      some (w.time m.timestamp) := by
    unfold Json.Scalar.ofInt
    split
    · rfl
    · next hneg => exact congrArg some (Int.toNat_of_nonneg (Int.not_lt.1 hneg))
  have htags : Json.Value.map? Json.Value.text? _ = some (SortedPairs.ofList m.tags) :=
    (Json.Value.map?_object _ (fun s => .scalar (.text s)) id (fun _ => rfl) _).trans
      (congrArg some (List.map_id _))
  have hfields := Json.Value.map?_object Json.Value.fieldValue? (fun v => .scalar (FieldValue.scalar v))
    FieldValue.readBack FieldValue.ofScalar?_scalar
    (SortedPairs.ofList (m.fields.filter fun f => !f.2.isNonFinite))
  rw [LineRecord.ofLine?, document?_line w h]
  simp [Json.Value.member?, lookup_cons_ite, Json.Value.text?, htags, hfields, htime]

theorem lines_splitOn (w : LineWriter) (ms : List Metric) :
    (w.lines ms).splitOn '\n' = ms.map w.line ++ [[]] := by
  induction ms with
  | nil => rfl
  | cons m ms ih =>
      have hline : ∀ c ∈ w.line m, (c == '\n') = false := by
        intro c hc
        rw [beq_eq_false_iff_ne]
        rintro rfl
        exact w.newline_not_mem_line m hc
      rw [lines_cons, List.splitOn, List.splitOnP_append_cons_of_forall_mem hline '\n' rfl]
      exact congrArg _ ih

theorem count_lines (w : LineWriter) (ms : List Metric) : (w.lines ms).count '\n' = ms.length := by
  induction ms with
  | nil => rfl
  | cons m ms ih =>
      rw [lines_cons, List.count_append, List.count_eq_zero.2 (w.newline_not_mem_line m),
        List.count_cons_self, ih, Nat.zero_add, List.length_cons]

/-- Any metrics give as many lines as they are, and cutting the text at its newlines
gives the lines of the metrics back. The line of a metric whose finite numbers are
read back is read as its name, its tags and its fields without the other numbers,
each as the value that it is or, if it is an unsigned word below `2 ^ 63`, as the
signed word of the same value. -/
theorem lines_read_back (w : LineWriter) (ms : List Metric) :
    (w.lines ms).count '\n' = ms.length ∧
      (w.lines ms).splitOn '\n' = ms.map w.line ++ [[]] ∧
      (∀ m ∈ ms, SortedPairs.Sorted m.tags → Fields.Distinct m.fields →
        (∀ f ∈ m.fields, ∀ x, f.2 = .float x → x.isFinite = true → Json.ReadsBack x) →
        ∃ r, LineRecord.ofLine? (w.line m) = some r ∧ r.name = m.name ∧ r.tags = m.tags ∧
          r.fields.Perm
            ((m.fields.filter fun f => !f.2.isNonFinite).map fun f => (f.1, f.2.readBack))) ∧
      ∀ v : FieldValue, v.readBack = v ∨ ∃ n i, v = .uint n ∧ v.readBack = .int i ∧
        n.toNat < 0x8000000000000000 ∧ i.toInt = n.toNat := by
  refine ⟨count_lines w ms, lines_splitOn w ms, fun m _ htags hfields hfloats => ?_,
    FieldValue.eq_readBack_or⟩
  have hreads : ∀ f ∈ m.fields, f.2.isNonFinite = false → f.2.ReadsBack := by
    intro f hf hfinite
    cases hv : f.2 with
    | float x =>
        rw [hv] at hfinite
        exact hfloats f hf x hv (Bool.not_eq_false' _ ▸ hfinite)
    | int n => trivial
    | uint n => trivial
    | bool b => trivial
    | text s => trivial
  refine ⟨_, ofLine?_line w hreads, rfl, ?_, ?_⟩
  · exact (Tags.insertAll_eq_sortedInsertAll SortedPairs.sorted_nil m.tags).symm.trans
      (Tags.insertAll_of_sorted htags)
  · exact (SortedPairs.ofList_perm ((List.filter_sublist.map Prod.fst).nodup hfields)).map _

/-- Metrics whose texts hold what has a meaning in JSON and between lines, and
whose values are at the ends of their kinds. -/
def unruly : List Metric := [
  ⟨"a\nb", [("\"", "\\u000a"), ("host", "\t\x00")],
    [("n", .uint 9223372036854775807), ("a", .uint 9223372036854775808),
      ("gone", .float Binary64.nan), ("x", .float ⟨0x3fb999999999999a⟩),
      ("y", .float ⟨0x8000000000000000⟩), ("", .text "\r\n,")],
    .saturate (-1), .untyped⟩,
  ⟨"\x7b\x7d", [], [("low", .int Int64.minValue), ("z", .float ⟨0x4059200000000000⟩)],
    .epoch, .untyped⟩]

theorem lines_read_back_unruly :
    let w := LineWriter.mk (Duration.ofSeconds 1)
    (w.lines unruly).count '\n' = 2 ∧ ((w.lines unruly).splitOn '\n').length = 3 ∧
      ∃ r s, unruly.map (fun m => LineRecord.ofLine? (w.line m)) = [some r, some s] ∧
        r.name = "a\nb" ∧ r.tags = [("\"", "\\u000a"), ("host", "\t\x00")] ∧
        r.fields.Perm [("n", .int 9223372036854775807), ("a", .uint 9223372036854775808),
          ("x", .float ⟨0x3fb999999999999a⟩), ("y", .float ⟨0x8000000000000000⟩),
          ("", .text "\r\n,")] ∧
        s.name = "\x7b\x7d" ∧ s.tags = [] ∧
        s.fields.Perm [("low", .int Int64.minValue), ("z", .float ⟨0x4059200000000000⟩)] := by
  intro w
  obtain ⟨hcount, hsplit, hread, -⟩ := lines_read_back w unruly
  have htags : ∀ m ∈ unruly, SortedPairs.Sorted m.tags := by decide
  have hfields : ∀ m ∈ unruly, Fields.Distinct m.fields := by decide
  have htenth : Json.ReadsBack ⟨0x3fb999999999999a⟩ := by decide +kernel
  have hzero : Json.ReadsBack ⟨0x8000000000000000⟩ := by decide +kernel
  have hhalf : Json.ReadsBack ⟨0x4059200000000000⟩ := by decide +kernel
  have hfloats : ∀ m ∈ unruly, ∀ f ∈ m.fields, ∀ x, f.2 = .float x → x.isFinite = true →
      Json.ReadsBack x := by
    simp only [unruly, List.forall_mem_cons, List.not_mem_nil, false_imp_iff, implies_true, and_true,
      FieldValue.float.injEq, reduceCtorEq, true_and, forall_eq']
    exact ⟨⟨fun hfinite => absurd hfinite (by decide), fun _ => htenth, fun _ => hzero⟩,
      fun _ => hhalf⟩
  have hall := fun m hm => hread m hm (htags m hm) (hfields m hm) (hfloats m hm)
  obtain ⟨r, hr, hrname, hrtags, hrfields⟩ := hall _ List.mem_cons_self
  obtain ⟨s, hs, hsname, hstags, hsfields⟩ := hall _ (List.mem_cons_of_mem _ List.mem_cons_self)
  refine ⟨hcount, congrArg List.length hsplit, r, s, ?_, hrname, hrtags, hrfields, hsname, hstags,
    hsfields⟩
  exact congrArg₂ (fun a b => [a, b]) hr hs

end LineWriter

end MetricAgent
