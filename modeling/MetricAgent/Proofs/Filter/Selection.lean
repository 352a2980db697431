import MetricAgent.Proofs.Metric.Integrity
import MetricAgent.Proofs.Outcomes

/-!
# What a filter lets through

A filter is described by its configuration alone once it is known which texts a
pattern hits. The lists of a configuration then become conditions on a name, on
the tags and on the keys of a metric (`FilterConfig.Admits`), in which an empty
list is no constraint: neither a list of patterns nor the list of a tag.

`FilterConfig.toFilter` makes the filter for any such relation of patterns and
texts, and compiling gives the filter for the relation of globs. So what holds
of `toFilter` for every relation holds of compiled filters without a look at
what globs are (`FilterConfig.apply_as_described`).
-/

namespace MetricAgent

/-- Whether a text matches a pattern. A pattern that cannot be read matches
none. -/
def Glob.hit (pattern s : String) : Bool :=
  match ofPattern pattern with
  | .ok g => g.accepts s
  | .error _ => false

namespace FilterConfig

/-! ### The conditions of a configuration -/

section Conditions

variable (hit : String → String → Bool)

def AnyHit (patterns : List String) (s : String) : Prop := ∃ p ∈ patterns, hit p s = true

instance (patterns : List String) (s : String) : Decidable (AnyHit hit patterns s) :=
  inferInstanceAs (Decidable (∃ p ∈ patterns, hit p s = true))

/-- A list to pass and a list to drop let a text through: one of the patterns to
pass hits it, or there are none, and no pattern to drop does. -/
def Lets (pass drop : List String) (s : String) : Prop :=
  (pass = [] ∨ AnyHit hit pass s) ∧ ¬ AnyHit hit drop s

instance (pass drop : List String) (s : String) : Decidable (Lets hit pass drop s) :=
  inferInstanceAs (Decidable (_ ∧ _))

/-- There is a tag whose value is hit by a pattern listed under its key. -/
def TagHit (entries : List (String × List String)) (tags : Tags) : Prop :=
  ∃ e ∈ entries, ∃ v, (e.1, v) ∈ tags ∧ AnyHit hit e.2 v

/-- A metric that is let through: its name is, a tag to pass is hit if one is
listed with patterns, no tag to drop is hit, and the key of a field is let
through. -/
structure Admits (c : FilterConfig) (m : Metric) : Prop where
  name : Lets hit c.namePass c.nameDrop m.name
  tagPass : (∀ e ∈ c.tagPass, e.2 = []) ∨ TagHit hit c.tagPass m.tags
  tagDrop : ¬ TagHit hit c.tagDrop m.tags
  field : ∃ f ∈ m.fields, Lets hit c.fieldPass c.fieldDrop f.1

def testOf (patterns : List String) : Option TextTest :=
  if patterns.isEmpty then none else some fun s => patterns.any fun p => hit p s

def tagTests (entries : List (String × List String)) : List (String × TextTest) :=
  entries.flatMap fun e => ((testOf hit e.2).map fun t => (e.1, t)).toList

def toFilter (c : FilterConfig) : Filter where
  namePass := testOf hit c.namePass
  nameDrop := testOf hit c.nameDrop
  tagPass := tagTests hit c.tagPass
  tagDrop := tagTests hit c.tagDrop
  fieldPass := testOf hit c.fieldPass
  fieldDrop := testOf hit c.fieldDrop
  tagInclude := testOf hit c.tagInclude
  tagExclude := testOf hit c.tagExclude
  tagRename := SortedPairs.ofList c.tagRename

end Conditions

variable {hit : String → String → Bool} {c : FilterConfig} {m n : Metric}

/-! ### Tests of patterns -/

theorem passes_testOf (patterns : List String) (s : String) :
    Filter.passes (testOf hit patterns) s = true ↔ patterns = [] ∨ AnyHit hit patterns s := by
  cases patterns with
  | nil => exact ⟨fun _ => .inl rfl, fun _ => rfl⟩
  | cons p ps =>
      have htest : Filter.passes (testOf hit (p :: ps)) s = (p :: ps).any fun q => hit q s := rfl
      rw [htest, List.any_eq_true]
      exact (or_iff_right (List.cons_ne_nil p ps)).symm

theorem hits_testOf (patterns : List String) (s : String) :
    Filter.hits (testOf hit patterns) s = true ↔ AnyHit hit patterns s := by
  cases patterns with
  | nil => exact ⟨nofun, nofun⟩
  | cons p ps =>
      have htest : Filter.hits (testOf hit (p :: ps)) s = (p :: ps).any fun q => hit q s := rfl
      rw [htest, List.any_eq_true]
      exact Iff.rfl

theorem passes_and_not_hits (hit : String → String → Bool) (pass drop : List String)
    (s : String) :
    (Filter.passes (testOf hit pass) s && !Filter.hits (testOf hit drop) s) =
      decide (Lets hit pass drop s) := by
  rw [Bool.eq_iff_iff, Bool.and_eq_true, Bool.not_eq_true', decide_eq_true_eq, passes_testOf,
    ← Bool.not_eq_true, hits_testOf]
  exact Iff.rfl

theorem mem_tagTests {entries : List (String × List String)} {test : String × TextTest} :
    test ∈ tagTests hit entries ↔
      ∃ e ∈ entries, e.2 ≠ [] ∧ test = (e.1, fun s => e.2.any fun p => hit p s) := by
  rw [tagTests, List.mem_flatMap]
  refine exists_congr fun e => and_congr_right fun _ => ?_
  obtain ⟨key, patterns⟩ := e
  cases patterns with
  | nil => simp [testOf]
  | cons p ps => simp [testOf]

theorem isEmpty_tagTests (entries : List (String × List String)) :
    (tagTests hit entries).isEmpty = true ↔ ∀ e ∈ entries, e.2 = [] := by
  rw [List.isEmpty_iff, List.eq_nil_iff_forall_not_mem]
  constructor
  · intro h e he
    by_contra hne
    exact h _ (mem_tagTests.2 ⟨e, he, hne, rfl⟩)
  · intro h test htest
    obtain ⟨e, he, hne, -⟩ := mem_tagTests.1 htest
    exact hne (h e he)

theorem anyTagMatches_tagTests (htags : SortedPairs.Sorted m.tags)
    (entries : List (String × List String)) :
    Filter.anyTagMatches m (tagTests hit entries) = true ↔ TagHit hit entries m.tags := by
  have htag (key v : String) : m.tag? key = some v ↔ (key, v) ∈ m.tags := by
    rw [Metric.tag?, Tags.get?_eq_lookup htags, mem_iff_lookup (Tags.nodup_keys htags)]
  rw [Filter.anyTagMatches, List.any_eq_true]
  constructor
  · rintro ⟨test, htest, hmatch⟩
    obtain ⟨e, he, -, rfl⟩ := mem_tagTests.1 htest
    obtain ⟨v, hv, hany⟩ := (Option.any_eq_true _ _).1 hmatch
    exact ⟨e, he, v, (htag _ _).1 hv, List.any_eq_true.1 hany⟩
  · rintro ⟨e, he, v, hv, p, hp, hhit⟩
    refine ⟨_, mem_tagTests.2 ⟨e, he, List.ne_nil_of_mem hp, rfl⟩, ?_⟩
    exact (Option.any_eq_true _ _).2 ⟨v, (htag _ _).2 hv, List.any_eq_true.2 ⟨p, hp, hhit⟩⟩

/-! ### Compiling -/

theorem any_accepts {patterns : List String} {globs : List Glob}
    (h : List.Forall₂ (fun p g => Glob.ofPattern p = .ok g) patterns globs) (s : String) :
    (globs.any fun g => g.accepts s) = patterns.any fun p => Glob.hit p s := by
  induction h with
  | nil => rfl
  | @cons p g patterns globs hp _ ih =>
      have hg : Glob.hit p s = g.accepts s := by rw [Glob.hit, hp]
      rw [List.any_cons, List.any_cons, ih, hg]

theorem eq_of_compileList {patterns : List String} {test : Option TextTest}
    (h : compileList patterns = .ok test) : test = testOf Glob.hit patterns := by
  unfold compileList at h
  split at h
  · next hempty =>
    cases h
    rw [testOf, if_pos hempty]
  · next hempty =>
    obtain ⟨globs, hglobs, h⟩ := bind_eq_ok.1 h
    cases h
    obtain ⟨read, hread, hdeep⟩ := bind_eq_ok.1 hglobs
    split at hdeep
    · cases hdeep
    · cases hdeep
      rw [testOf, if_neg hempty]
      exact congrArg some (funext (any_accepts ((forall₂_of_mapM hread).imp fun _ _ hp => hp.2)))

theorem eq_of_compileTags {entries : List (String × List String)}
    {tests : List (String × TextTest)} (h : compileTags entries = .ok tests) :
    tests = tagTests Glob.hit entries := by
  induction entries generalizing tests with
  | nil =>
      cases h
      rfl
  | cons e entries ih =>
      obtain ⟨test, htest, h⟩ := bind_eq_ok.1 h
      obtain ⟨rest, hrest, h⟩ := bind_eq_ok.1 h
      cases h
      rw [eq_of_compileList htest, ih hrest]
      rfl

/-- Compiling makes the filter for what globs match. -/
theorem eq_of_compile {f : Filter} (h : c.compile = .ok f) : f = c.toFilter Glob.hit := by
  obtain ⟨namePass, hnamePass, h⟩ := bind_eq_ok.1 h
  obtain ⟨nameDrop, hnameDrop, h⟩ := bind_eq_ok.1 h
  obtain ⟨tagPass, htagPass, h⟩ := bind_eq_ok.1 h
  obtain ⟨tagDrop, htagDrop, h⟩ := bind_eq_ok.1 h
  obtain ⟨fieldPass, hfieldPass, h⟩ := bind_eq_ok.1 h
  obtain ⟨fieldDrop, hfieldDrop, h⟩ := bind_eq_ok.1 h
  obtain ⟨tagInclude, htagInclude, h⟩ := bind_eq_ok.1 h
  obtain ⟨tagExclude, htagExclude, h⟩ := bind_eq_ok.1 h
  cases h
  rw [eq_of_compileList hnamePass, eq_of_compileList hnameDrop, eq_of_compileTags htagPass,
    eq_of_compileTags htagDrop, eq_of_compileList hfieldPass, eq_of_compileList hfieldDrop,
    eq_of_compileList htagInclude, eq_of_compileList htagExclude]
  rfl

end FilterConfig

/-! ### Selecting and trimming -/

namespace Filter

variable {f : Filter} {m n : Metric}

theorem eq_empty_of_isActive (h : f.isActive = false) : f = empty := by
  simp only [isActive, Bool.or_eq_false_iff, Option.isSome_eq_false_iff, Option.isNone_iff_eq_none,
    Bool.not_eq_false', List.isEmpty_iff] at h
  obtain ⟨⟨⟨⟨⟨⟨⟨⟨hnamePass, hnameDrop⟩, htagPass⟩, htagDrop⟩, hfieldPass⟩, hfieldDrop⟩,
    htagInclude⟩, htagExclude⟩, htagRename⟩ := h
  cases f
  simp only at *
  subst_vars
  rfl

theorem modify_empty (m : Metric) : empty.modify m = m := by
  simp [modify, trim, empty, passes, hits, Metric.filterFields, Metric.filterTags,
    Metric.retainFields, Metric.retainTags]

/-- The shortcut for an inactive filter changes nothing for metrics with
fields. -/
theorem apply_eq (f : Filter) (hfields : m.fields ≠ []) :
    f.apply m =
      if f.select m && !(f.modify m).fields.isEmpty then some (f.modify m) else none := by
  unfold apply
  split
  · next hactive =>
    have hf : f = empty := eq_empty_of_isActive (Bool.not_eq_true' _ ▸ hactive)
    have hne : m.fields.isEmpty = false := List.isEmpty_eq_false_iff.2 hfields
    rw [hf, modify_empty, hne]
    rfl
  · cases f.select m
    · rfl
    · cases hempty : (f.modify m).fields.isEmpty <;> simp [hempty]

theorem modify_of_tagRename_nil (h : f.tagRename = []) (m : Metric) : f.modify m = f.trim m := by
  rw [modify, h, List.foldl_nil]

end Filter

namespace FilterConfig

variable {hit : String → String → Bool} {c : FilterConfig} {m n : Metric}

theorem select_toFilter (htags : SortedPairs.Sorted m.tags) :
    (c.toFilter hit).select m = true ↔
      Lets hit c.namePass c.nameDrop m.name ∧
        ((∀ e ∈ c.tagPass, e.2 = []) ∨ TagHit hit c.tagPass m.tags) ∧
        ¬ TagHit hit c.tagDrop m.tags := by
  simp only [Filter.select, toFilter]
  rw [passes_and_not_hits, Bool.and_assoc, Bool.and_eq_true, Bool.and_eq_true, decide_eq_true_eq,
    Bool.or_eq_true, isEmpty_tagTests, anyTagMatches_tagTests htags, Bool.not_eq_true',
    ← Bool.not_eq_true, anyTagMatches_tagTests htags]

theorem fields_modify_toFilter (m : Metric) :
    ((c.toFilter hit).modify m).fields =
      m.fields.filter fun p => Lets hit c.fieldPass c.fieldDrop p.1 := by
  rw [Filter.modify_eq]
  exact congrArg (m.fields.filter ·) (funext fun p => passes_and_not_hits hit _ _ p.1)

theorem tags_modify_toFilter (hrename : c.tagRename = []) (m : Metric) :
    ((c.toFilter hit).modify m).tags =
      m.tags.filter fun t => Lets hit c.tagInclude c.tagExclude t.1 := by
  have hnone : (c.toFilter hit).tagRename = [] := by rw [toFilter, hrename]; rfl
  rw [Filter.modify_of_tagRename_nil hnone]
  exact congrArg (m.tags.filter ·) (funext fun t => passes_and_not_hits hit _ _ t.1)

/-- What a configuration says about a filter and a metric. -/
structure Describes (c : FilterConfig) (hit : String → String → Bool) (f : Filter)
    (m : Metric) : Prop where
  isSome_apply : (f.apply m).isSome = true ↔ c.Admits hit m
  name_eq : ∀ n, f.apply m = some n → n.name = m.name
  kind_eq : ∀ n, f.apply m = some n → n.kind = m.kind
  timestamp_eq : ∀ n, f.apply m = some n → n.timestamp = m.timestamp
  fields_eq : ∀ n, f.apply m = some n →
    n.fields = m.fields.filter fun p => Lets hit c.fieldPass c.fieldDrop p.1
  tags_eq : ∀ n, f.apply m = some n → c.tagRename = [] →
    n.tags = m.tags.filter fun t => Lets hit c.tagInclude c.tagExclude t.1
  /-- The shortcut does what selecting and modifying does. -/
  apply_eq : f.apply m =
    if f.select m && !(f.modify m).fields.isEmpty then some (f.modify m) else none
  identity : c = empty → f.apply m = some m

theorem eq_modify_of_apply {f : Filter} (hfields : m.fields ≠ []) (h : f.apply m = some n) :
    n = f.modify m := by
  rw [f.apply_eq hfields] at h
  split at h
  · cases h
    rfl
  · cases h

theorem isSome_apply_toFilter (hfields : m.fields ≠ []) (htags : SortedPairs.Sorted m.tags) :
    ((c.toFilter hit).apply m).isSome = true ↔ c.Admits hit m := by
  have hfield : (!((c.toFilter hit).modify m).fields.isEmpty) = true ↔
      ∃ f ∈ m.fields, Lets hit c.fieldPass c.fieldDrop f.1 := by
    rw [fields_modify_toFilter, Bool.not_eq_true', List.isEmpty_eq_false_iff_exists_mem]
    simp only [List.mem_filter, decide_eq_true_eq]
  rw [Filter.apply_eq _ hfields, Option.isSome_ite, Bool.and_eq_true, select_toFilter htags, hfield]
  exact ⟨fun ⟨⟨hname, hpass, hdrop⟩, hfield⟩ => ⟨hname, hpass, hdrop, hfield⟩,
    fun h => ⟨⟨h.name, h.tagPass, h.tagDrop⟩, h.field⟩⟩

theorem describes_toFilter (c : FilterConfig) (hit : String → String → Bool)
    (hfields : m.fields ≠ []) (htags : SortedPairs.Sorted m.tags) :
    c.Describes hit (c.toFilter hit) m where
  isSome_apply := isSome_apply_toFilter hfields htags
  name_eq n h := by rw [eq_modify_of_apply hfields h, Filter.name_modify]
  kind_eq n h := by rw [eq_modify_of_apply hfields h, Filter.modify_eq]; rfl
  timestamp_eq n h := by rw [eq_modify_of_apply hfields h, Filter.modify_eq]; rfl
  fields_eq n h := by rw [eq_modify_of_apply hfields h, fields_modify_toFilter]
  tags_eq n h hrename := by rw [eq_modify_of_apply hfields h, tags_modify_toFilter hrename]
  apply_eq := Filter.apply_eq _ hfields
  identity h := by rw [h]; rfl

/-- A filter that has been compiled does what its configuration describes, and so
does the filter for any other relation of patterns and texts. -/
theorem apply_as_described (c : FilterConfig) (m : Metric) (hfields : m.fields ≠ [])
    (htags : SortedPairs.Sorted m.tags) :
    (∀ f, c.compile = .ok f → c.Describes Glob.hit f m) ∧
      ∀ hit, c.Describes hit (c.toFilter hit) m := by
  refine ⟨fun f hf => ?_, fun hit => describes_toFilter c hit hfields htags⟩
  rw [eq_of_compile hf]
  exact describes_toFilter c Glob.hit hfields htags

/-- Lists that ask for a host, in which an empty list stands, and that take a
field and a tag away. -/
def hosts : FilterConfig :=
  { empty with
    namePass := ["cpu*"]
    tagPass := [("zone", []), ("host", ["[ab]*"])]
    fieldDrop := ["tmp_*"]
    tagExclude := ["host"] }

def load : Metric :=
  ⟨"cpu0", [("host", "b1"), ("rack", "7")], [("tmp_x", .int 1), ("used", .int 2)], .epoch, .gauge⟩

theorem apply_as_described_hosts :
    load.fields ≠ [] ∧ SortedPairs.Sorted load.tags ∧ hosts.Admits Glob.hit load ∧
      ∃ f, hosts.compile = .ok f ∧ hosts.Describes Glob.hit f load ∧
        f.apply load = some { load with tags := [("rack", "7")], fields := [("used", .int 2)] } := by
  have hfields : load.fields ≠ [] := by decide
  have htags : SortedPairs.Sorted load.tags := by decide
  have hok : hosts.compile.isOk = true := by decide +kernel
  have happly : (hosts.toFilter Glob.hit).apply load =
      some { load with tags := [("rack", "7")], fields := [("used", .int 2)] } := by
    decide +kernel
  cases hcompile : hosts.compile with
  | error e =>
      rw [hcompile] at hok
      cases hok
  | ok f =>
      have hdescribes := (apply_as_described hosts load hfields htags).1 f hcompile
      rw [← eq_of_compile hcompile] at happly
      exact ⟨hfields, htags, hdescribes.isSome_apply.1 (happly ▸ rfl), f, rfl, hdescribes, happly⟩

end FilterConfig
end MetricAgent
