import MetricAgent.Proofs.Config.Fragments
import MetricAgent.Proofs.Text.ByteOrder
import MetricAgent.Proofs.Text.SortedPairs

/-!
# Fragments composed by name

The fragments of a directory are composed one by one, in the order of the bytes of
their names, so it does not matter in which order the directory lists them. As long
as every file can be read and neither the agent nor the telemetry is defined twice,
what has been composed is what the files say, one after the other
(`ConfigFragment.joined`). The first file at which this fails is the one that is
reported (`ConfigFragment.StopsWith`). A configuration may therefore be divided among
any number of files, as long as the pieces of its lists stay in their order
(`Config.load_directory_composed`).
-/

namespace MetricAgent

namespace ConfigFragment

def joined (fs : List ConfigFragment) : ConfigFragment where
  agent := (fs.filterMap agent).head?
  telemetry := (fs.filterMap telemetry).head?
  sources := fs.flatMap sources
  processors := fs.flatMap processors
  aggregators := fs.flatMap aggregators
  outputs := fs.flatMap outputs

/-- No two of the fragments define the agent, and no two the telemetry. -/
structure Compatible (fs : List ConfigFragment) : Prop where
  agent : (fs.filterMap agent).length ≤ 1
  telemetry : (fs.filterMap telemetry).length ≤ 1

/-- What goes wrong at a file that comes after some fragments. A file that can be
read may define the agent again, and if it does not, the telemetry. -/
inductive Obstacle (before : List ConfigFragment) :
    Except ConfigError ConfigFragment → ConfigError → Prop
  | unread (e : ConfigError) : Obstacle before (.error e) e
  | agent {f : ConfigFragment} : before.filterMap agent ≠ [] ∧ f.agent ≠ none →
      Obstacle before (.ok f) .conflictingAgent
  | telemetry {f : ConfigFragment} : ¬ (before.filterMap agent ≠ [] ∧ f.agent ≠ none) →
      before.filterMap telemetry ≠ [] ∧ f.telemetry ≠ none →
      Obstacle before (.ok f) .conflictingTelemetry

/-- The first file at which something goes wrong is stopped at with an error. -/
def StopsWith (reads : List (Except ConfigError ConfigFragment)) (e : ConfigError) : Prop :=
  ∃ fs r later, reads = fs.map .ok ++ r :: later ∧ Compatible fs ∧ Obstacle fs r e

/-- What files come to: an error at the first one at which something goes wrong, or
what they say, one after the other. -/
structure Composes (reads : List (Except ConfigError ConfigFragment))
    (outcome : Except ConfigError ConfigFragment) : Prop where
  error_iff (e : ConfigError) : outcome = .error e ↔ StopsWith reads e
  ok_iff (g : ConfigFragment) : outcome = .ok g ↔
    ∃ fs, reads = fs.map .ok ∧ Compatible fs ∧ g = joined fs

/-- What the files that can be read define in one part. -/
def definitions {β : Type} (part : ConfigFragment → Option β)
    (reads : List (Except ConfigError ConfigFragment)) : List β :=
  (reads.filterMap Except.toOption).filterMap part

variable {fs gs : List ConfigFragment} {f g : ConfigFragment} {e e' : ConfigError}
  {r r' : Except ConfigError ConfigFragment}
  {reads later later' : List (Except ConfigError ConfigFragment)}
  {outcome : Except ConfigError ConfigFragment}

/-! ### One more fragment -/

section Parts

variable {β : Type} (part : ConfigFragment → Option β)

theorem head?_filterMap_concat (fs : List ConfigFragment) (f : ConfigFragment) :
    ((fs ++ [f]).filterMap part).head? = ((fs.filterMap part).head? <|> part f) := by
  rw [filterMap_concat, List.head?_append, Option.head?_toList, Option.orElse_eq_orElse,
    Option.orElse_eq_or]

theorem length_filterMap_concat_le_iff (h : (fs.filterMap part).length ≤ 1) :
    ((fs ++ [f]).filterMap part).length ≤ 1 ↔ ¬ (fs.filterMap part ≠ [] ∧ part f ≠ none) := by
  rw [filterMap_concat, List.length_append, ← List.length_pos_iff]
  cases part f with
  | none => simpa using h
  | some x =>
      rw [Option.toList_some, List.length_singleton, and_iff_left (Option.some_ne_none x)]
      omega

theorem isSome_head?_filterMap (fs : List ConfigFragment) :
    ((fs.filterMap part).head?).isSome = true ↔ fs.filterMap part ≠ [] := by
  rw [List.isSome_head?]

end Parts

theorem Compatible.of_append (h : Compatible (fs ++ gs)) : Compatible fs := by
  have hsub : fs.Sublist (fs ++ gs) := List.sublist_append_left fs gs
  exact ⟨Nat.le_trans (hsub.filterMap _).length_le h.agent,
    Nat.le_trans (hsub.filterMap _).length_le h.telemetry⟩

theorem compatible_nil : Compatible [] := ⟨Nat.zero_le 1, Nat.zero_le 1⟩

theorem obstacle_unique (h : Obstacle fs r e) (h' : Obstacle fs r e') : e = e' := by
  cases h <;> cases h' <;> first | rfl | contradiction

/-- Fragments stay compatible with one more fragment unless something goes wrong at it. -/
theorem Compatible.concat_iff (h : Compatible fs) :
    Compatible (fs ++ [f]) ↔ ∀ e, ¬ Obstacle fs (.ok f) e := by
  constructor
  · intro hmore e hobstacle
    cases hobstacle with
    | agent hagent => exact (length_filterMap_concat_le_iff _ h.agent).1 hmore.agent hagent
    | telemetry hagent htelemetry =>
        exact (length_filterMap_concat_le_iff _ h.telemetry).1 hmore.telemetry htelemetry
  · intro hclear
    have hagent := fun hagent => hclear _ (.agent hagent)
    have htelemetry := fun htelemetry => hclear _ (.telemetry hagent htelemetry)
    exact ⟨(length_filterMap_concat_le_iff _ h.agent).2 hagent,
      (length_filterMap_concat_le_iff _ h.telemetry).2 htelemetry⟩

/-- The step of a composition. -/
theorem merge_joined (fs : List ConfigFragment) (f : ConfigFragment) :
    (joined fs).merge f =
      if fs.filterMap agent ≠ [] ∧ f.agent ≠ none then .error .conflictingAgent
      else if fs.filterMap telemetry ≠ [] ∧ f.telemetry ≠ none then .error .conflictingTelemetry
      else .ok (joined (fs ++ [f])) := by
  have hjoined : joined (fs ++ [f]) = {
      agent := (joined fs).agent <|> f.agent
      telemetry := (joined fs).telemetry <|> f.telemetry
      sources := (joined fs).sources ++ f.sources
      processors := (joined fs).processors ++ f.processors
      aggregators := (joined fs).aggregators ++ f.aggregators
      outputs := (joined fs).outputs ++ f.outputs } := by
    simp only [joined, head?_filterMap_concat, List.flatMap_append, List.flatMap_singleton]
  rw [hjoined]
  refine if_congr ?_ rfl (if_congr ?_ rfl rfl)
  · exact and_congr (isSome_head?_filterMap _ fs) Option.isSome_iff_ne_none
  · exact and_congr (isSome_head?_filterMap _ fs) Option.isSome_iff_ne_none

theorem merge_joined_of_obstacle (h : Obstacle fs (.ok f) e) :
    (joined fs).merge f = .error e := by
  rw [merge_joined]
  cases h with
  | agent hagent => rw [if_pos hagent]
  | telemetry hagent htelemetry => rw [if_neg hagent, if_pos htelemetry]

theorem merge_joined_of_clear (h : ∀ e, ¬ Obstacle fs (.ok f) e) :
    (joined fs).merge f = .ok (joined (fs ++ [f])) := by
  have hagent := fun hagent => h _ (.agent hagent)
  rw [merge_joined, if_neg hagent, if_neg fun htelemetry => h _ (.telemetry hagent htelemetry)]

/-! ### Where a composition stops -/

theorem not_obstacle_of_compatible (h : Compatible (fs ++ f :: gs)) (e : ConfigError) :
    ¬ Obstacle fs (.ok f) e := by
  have hmore : Compatible (fs ++ [f]) := by
    rw [List.append_cons] at h
    exact h.of_append
  exact hmore.of_append.concat_iff.1 hmore e

/-- There is one way to divide what has been read into what is good and the first
file that is not. -/
theorem eq_of_append_eq (h : fs.map .ok ++ r :: later = gs.map .ok ++ r' :: later')
    (hfs : ∀ f rest, gs = fs ++ f :: rest → r ≠ .ok f)
    (hgs : ∀ g rest, fs = gs ++ g :: rest → r' ≠ .ok g) : fs = gs ∧ r = r' := by
  induction fs generalizing gs with
  | nil =>
      cases gs with
      | nil => exact ⟨rfl, (List.cons.inj h).1⟩
      | cons g gs => exact absurd (List.cons.inj h).1 (hfs g gs rfl)
  | cons f fs ih =>
      cases gs with
      | nil => exact absurd (List.cons.inj h).1.symm (hgs f fs rfl)
      | cons g gs =>
          obtain ⟨hhead, htail⟩ := List.cons.inj h
          obtain rfl := Except.ok.inj hhead
          obtain ⟨rfl, hr⟩ := ih htail (fun f' rest heq => hfs f' rest (congrArg (f :: ·) heq))
            fun g' rest heq => hgs g' rest (congrArg (f :: ·) heq)
          exact ⟨rfl, hr⟩

/-- What goes wrong at the first file is what is reported. -/
theorem stopsWith_iff_of_obstacle (hfs : Compatible fs) (h : Obstacle fs r e) :
    StopsWith (fs.map .ok ++ r :: later) e' ↔ e = e' := by
  constructor
  · rintro ⟨gs, r', later', heq, hgs, h'⟩
    obtain ⟨rfl, rfl⟩ := eq_of_append_eq heq
      (by rintro f rest rfl rfl; exact not_obstacle_of_compatible hgs e h)
      (by rintro g rest rfl rfl; exact not_obstacle_of_compatible hfs e' h')
    exact obstacle_unique h h'
  · rintro rfl
    exact ⟨fs, r, later, rfl, hfs, h⟩

theorem map_ok_injective : Function.Injective
    (List.map (.ok : ConfigFragment → Except ConfigError ConfigFragment)) :=
  List.map_injective_iff.2 fun _ _ => Except.ok.inj

theorem not_stopsWith_of_compatible (hfs : Compatible fs) : ¬ StopsWith (fs.map .ok) e := by
  rintro ⟨gs, r, later, heq, -, h⟩
  obtain ⟨gs', rest, rfl, hgs, hrest⟩ := List.map_eq_append_iff.1 heq
  obtain ⟨f, rest, rfl, rfl, -⟩ := List.map_eq_cons_iff.1 hrest
  obtain rfl := map_ok_injective hgs
  exact not_obstacle_of_compatible hfs e h

/-- Files that stop at one of them come to its error. -/
theorem Composes.of_obstacle (hfs : Compatible fs) (h : Obstacle fs r e) :
    Composes (fs.map .ok ++ r :: later) (.error e) where
  error_iff e' := by rw [stopsWith_iff_of_obstacle hfs h, Except.error.injEq]
  ok_iff g := by
    refine iff_of_false nofun ?_
    rintro ⟨gs, hgs, hcompatible, -⟩
    refine not_stopsWith_of_compatible hcompatible (e := e) ?_
    rw [← hgs]
    exact (stopsWith_iff_of_obstacle hfs h).2 rfl

/-- Files that go together come to what they say. -/
theorem Composes.of_compatible (hfs : Compatible fs) : Composes (fs.map .ok) (.ok (joined fs)) where
  error_iff e := iff_of_false nofun (not_stopsWith_of_compatible hfs)
  ok_iff g := by
    constructor
    · rintro ⟨⟩
      exact ⟨fs, rfl, hfs, rfl⟩
    · rintro ⟨gs, hgs, -, rfl⟩
      rw [map_ok_injective hgs]

/-- What fragments that have been composed come to with the files behind them. -/
theorem mergeFiles_composes (hfs : Compatible fs) (contents : List (List UInt8)) :
    Composes (fs.map .ok ++ contents.map ofFile) ((joined fs).mergeFiles contents) := by
  induction contents generalizing fs with
  | nil =>
      rw [List.map_nil, List.append_nil]
      exact .of_compatible hfs
  | cons content contents ih =>
      rw [List.map_cons, mergeFiles]
      cases ofFile content with
      | error e => exact .of_obstacle hfs (.unread e)
      | ok f =>
          change Composes _ ((joined fs).merge f >>= fun g => g.mergeFiles contents)
          by_cases hclear : ∀ e, ¬ Obstacle fs (.ok f) e
          · rw [merge_joined_of_clear hclear, List.append_cons]
            have hmore := ih (hfs.concat_iff.2 hclear)
            rwa [List.map_append] at hmore
          · obtain ⟨e, hobstacle⟩ := not_forall_not.1 hclear
            rw [merge_joined_of_obstacle hobstacle]
            exact .of_obstacle hfs hobstacle

/-! ### When files go together -/

theorem exists_map_ok_iff :
    (∃ fs : List ConfigFragment, reads = fs.map .ok) ↔ ∀ e, .error e ∉ reads := by
  constructor
  · rintro ⟨fs, rfl⟩ e hmem
    obtain ⟨f, -, hf⟩ := List.mem_map.1 hmem
    cases hf
  · intro h
    induction reads with
    | nil => exact ⟨[], rfl⟩
    | cons r reads ih =>
        obtain ⟨fs, rfl⟩ := ih fun e he => h e (List.mem_cons_of_mem r he)
        cases r with
        | error e => exact absurd List.mem_cons_self (h e)
        | ok f => exact ⟨f :: fs, rfl⟩

theorem definitions_map_ok {β : Type} (part : ConfigFragment → Option β)
    (fs : List ConfigFragment) : definitions part (fs.map .ok) = fs.filterMap part := by
  rw [definitions, List.filterMap_map]
  exact congrArg _ (List.filterMap_some)

/-- Files go together if all of them can be read and none defines again what may be
defined once. -/
theorem exists_compatible_iff : (∃ fs, reads = fs.map .ok ∧ Compatible fs) ↔
    (∀ e, .error e ∉ reads) ∧ (definitions agent reads).length ≤ 1 ∧
      (definitions telemetry reads).length ≤ 1 := by
  rw [← exists_map_ok_iff]
  constructor
  · rintro ⟨fs, rfl, hfs⟩
    rw [definitions_map_ok, definitions_map_ok]
    exact ⟨⟨fs, rfl⟩, hfs.agent, hfs.telemetry⟩
  · rintro ⟨⟨fs, rfl⟩, hagent, htelemetry⟩
    rw [definitions_map_ok] at hagent htelemetry
    exact ⟨fs, rfl, hagent, htelemetry⟩

/-- Files come to an error if and only if they do not go together. -/
theorem Composes.exists_stopsWith_iff (h : Composes reads outcome) :
    (∃ e, StopsWith reads e) ↔
      (∃ e, .error e ∈ reads) ∨ 1 < (definitions agent reads).length ∨
        1 < (definitions telemetry reads).length := by
  have hok : (∃ g, outcome = .ok g) ↔ ∃ fs, reads = fs.map .ok ∧ Compatible fs := by
    simp only [h.ok_iff]
    exact ⟨fun ⟨_, fs, hfs, hc, _⟩ => ⟨fs, hfs, hc⟩, fun ⟨fs, hfs, hc⟩ => ⟨_, fs, hfs, hc, rfl⟩⟩
  have herror : (∃ e, outcome = .error e) ↔ ¬ ∃ g, outcome = .ok g := by
    cases outcome <;> simp
  simp only [← h.error_iff]
  rw [herror, hok, exists_compatible_iff, not_and_or, not_and_or, Nat.not_le, Nat.not_le]
  simp only [not_forall, not_not]

theorem Composes.map_error_iff (h : Composes reads outcome) :
    outcome.map toConfig = .error e ↔ StopsWith reads e := by
  rw [← h.error_iff]
  cases outcome <;> simp [Except.map]

theorem Composes.map_ok_iff (h : Composes reads outcome) {c : Config} :
    outcome.map toConfig = .ok c ↔
      ∃ fs, reads = fs.map .ok ∧ Compatible fs ∧ c = (joined fs).toConfig := by
  constructor
  · intro hc
    cases outcome with
    | error e => cases hc
    | ok g =>
        obtain ⟨fs, hfs, hcompatible, rfl⟩ := (h.ok_iff g).1 rfl
        exact ⟨fs, hfs, hcompatible, (Except.ok.inj hc).symm⟩
  · rintro ⟨fs, hfs, hcompatible, rfl⟩
    rw [(h.ok_iff _).2 ⟨fs, hfs, hcompatible, rfl⟩]
    rfl

end ConfigFragment

/-! ### Fragments that name processors -/

def ProcessorConfig.isBare (plugin : String) : ProcessorConfig → Bool
  | ⟨p, none, 1, true, 1000, .null⟩ => p == plugin
  | _ => false

theorem ProcessorConfig.eq_ofPlugin {plugin : String} {p : ProcessorConfig}
    (h : p.isBare plugin = true) : p = .ofPlugin plugin := by
  unfold isBare at h
  split at h
  · rw [beq_iff_eq.1 h]
    rfl
  · cases h

def ProcessorConfig.areBare : List String → List ProcessorConfig → Bool
  | [], [] => true
  | plugin :: plugins, p :: processors => p.isBare plugin && areBare plugins processors
  | _, _ => false

theorem ProcessorConfig.eq_map_ofPlugin {plugins : List String} {processors : List ProcessorConfig}
    (h : areBare plugins processors = true) : processors = plugins.map .ofPlugin := by
  induction plugins generalizing processors with
  | nil =>
      cases processors with
      | nil => rfl
      | cons p processors => cases h
  | cons plugin plugins ih =>
      cases processors with
      | nil => cases h
      | cons p processors =>
          obtain ⟨hp, hrest⟩ := Bool.and_eq_true_iff.1 h
          rw [eq_ofPlugin hp, ih hrest, List.map_cons]

namespace ConfigFragment

def ofProcessors (plugins : List String) : ConfigFragment :=
  { empty with processors := plugins.map .ofPlugin }

def namesProcessors (plugins : List String) : ConfigFragment → Bool
  | ⟨none, none, [], processors, [], []⟩ => ProcessorConfig.areBare plugins processors
  | _ => false

theorem eq_ofProcessors {plugins : List String} {s : String}
    (h : (ofText s).toOption.any (namesProcessors plugins) = true) :
    ofText s = .ok (ofProcessors plugins) := by
  cases hread : ofText s with
  | error e =>
      rw [hread] at h
      cases h
  | ok f =>
      rw [hread] at h
      change namesProcessors plugins f = true at h
      unfold namesProcessors at h
      split at h
      · next processors =>
        rw [ProcessorConfig.eq_map_ofPlugin h]
        rfl
      · cases h

/-- A fragment whose agent is written in a form that says the same in a whole
configuration is one. -/
theorem ofText_toConfig {s : String} {f : ConfigFragment} (hvoid : voidsAgent s = false)
    (hf : ofText s = .ok f) : Config.ofText s = .ok f.toConfig := by
  have hagree := ofText_agree hvoid
  rw [hf] at hagree
  generalize Config.ofText s = whole at hagree
  cases hagree with
  | ok hc => rw [hc]

end ConfigFragment

namespace Config

open ConfigFragment

/-- The entries of a directory that its own path leads to. -/
def reachable (files : Files) (path : String) (entries : List (String × FileTree)) :
    List (String × FileTree) :=
  entries.filter fun e => (files.resolve (Files.entryPath path e.1)).isOk

/-- A configuration is what fragments say, one after the other: each of its lists is
divided among them, and its agent and its telemetry are in one of them at most. An
agent of which nothing is said may be left out. -/
structure DividedInto (c : Config) (fs : List ConfigFragment) : Prop where
  agent : ∃ a : Option AgentConfig, fs.filterMap ConfigFragment.agent = a.toList ∧
    a.getD .default = c.agent
  telemetry : fs.filterMap ConfigFragment.telemetry = c.telemetry.toList
  sources : fs.flatMap ConfigFragment.sources = c.sources
  processors : fs.flatMap ConfigFragment.processors = c.processors
  aggregators : fs.flatMap ConfigFragment.aggregators = c.aggregators
  outputs : fs.flatMap ConfigFragment.outputs = c.outputs

variable {c : Config} {fs : List ConfigFragment} {files : Files} {path : String}
  {entries : List (String × FileTree)} {sorted : List (String × List UInt8)}

theorem DividedInto.compatible (h : c.DividedInto fs) : Compatible fs := by
  obtain ⟨a, ha, -⟩ := h.agent
  exact ⟨ha ▸ Option.length_toList_le, h.telemetry ▸ Option.length_toList_le⟩

theorem DividedInto.toConfig_joined (h : c.DividedInto fs) : (joined fs).toConfig = c := by
  obtain ⟨a, ha, hagent⟩ := h.agent
  obtain ⟨agent, telemetry, sources, processors, aggregators, outputs⟩ := c
  unfold joined toConfig
  simp only [ha, hagent, h.telemetry, h.sources, h.processors, h.aggregators, h.outputs,
    Option.head?_toList]

/-- Fragments are taken in the order of the bytes of their names, in whatever order
they are found. -/
theorem fragmentFiles_eq_of_perm (hperm : (fragments entries).Perm sorted)
    (hsorted : sorted.Pairwise fun a b => Text.bytes a.1 < Text.bytes b.1) :
    fragmentFiles entries = sorted.map Prod.snd := by
  rw [fragmentFiles_eq, SortedPairs.ofList_eq_of_perm hperm]
  exact hsorted.imp Text.bytes_lt_bytes_iff.1

/-- What is composed of a directory could start from a fragment that says nothing. -/
theorem ofDirectory_eq (h : fragmentFiles entries ≠ []) :
    ofDirectory entries =
      ((joined []).mergeFiles (fragmentFiles entries)).map ConfigFragment.toConfig := by
  obtain ⟨content, rest, hfiles⟩ := List.exists_cons_of_ne_nil h
  simp only [ofDirectory, hfiles, mergeFiles]
  cases ofFile content with
  | error e => rfl
  | ok f =>
      change (f.mergeFiles rest >>= fun g => pure g.toConfig) = (f.mergeFiles rest).map _
      cases f.mergeFiles rest <;> rfl

/-- A directory is loaded as the fragments in it say, one after the other in the
order of the bytes of their names, in whatever order it lists them. It fails if and
only if one of them cannot be read, or the agent or the telemetry is defined twice,
and then with the error of the first one at which this happens. A configuration that
is divided among fragments is loaded from them, or refused, as it is from one file. -/
theorem load_directory_composed (hpath : files.resolve path = .ok (.directory entries))
    (hfound : (fragments (reachable files path entries)).Perm sorted)
    (hsorted : sorted.Pairwise fun a b => Text.bytes a.1 < Text.bytes b.1) (hsome : sorted ≠ []) :
    let loaded := ofDirectory (reachable files path entries)
    let reads := sorted.map fun file => ofFile file.2
    ((∃ e, loaded = .error e) ↔ (∃ e, .error e ∈ reads) ∨
        1 < (definitions ConfigFragment.agent reads).length ∨
        1 < (definitions ConfigFragment.telemetry reads).length) ∧
      (∀ e, loaded = .error e ↔ StopsWith reads e) ∧
      (∀ c, loaded = .ok c ↔
        ∃ fs, reads = fs.map .ok ∧ Compatible fs ∧ c = (joined fs).toConfig) ∧
      load files path = loaded >>= checked ∧
      ∀ files' path' content s c fs, files'.resolve path' = .ok (.file content) →
        Text.ofBytes? content = some s → ofText s = .ok c →
        reads = fs.map .ok → c.DividedInto fs →
        load files path = checked c ∧ load files' path' = checked c := by
  intro loaded reads
  have hfiles : fragmentFiles (reachable files path entries) = sorted.map Prod.snd :=
    fragmentFiles_eq_of_perm hfound hsorted
  have hne : fragmentFiles (reachable files path entries) ≠ [] := by
    rwa [hfiles, Ne, List.map_eq_nil_iff]
  have hloaded : loaded = ((joined []).mergeFiles (sorted.map Prod.snd)).map toConfig :=
    hfiles ▸ ofDirectory_eq hne
  have hcomposes : Composes reads ((joined []).mergeFiles (sorted.map Prod.snd)) := by
    have hall := mergeFiles_composes compatible_nil (sorted.map Prod.snd)
    rwa [List.map_map] at hall
  have hok : ∀ c, loaded = .ok c ↔
      ∃ fs, reads = fs.map .ok ∧ Compatible fs ∧ c = (joined fs).toConfig := by
    rw [hloaded]
    exact fun c => hcomposes.map_ok_iff
  have herror : ∀ e, loaded = .error e ↔ StopsWith reads e := by
    rw [hloaded]
    exact fun e => hcomposes.map_error_iff
  have hload : load files path = loaded >>= checked := load_directory_eq hpath
  refine ⟨?_, herror, hok, hload, ?_⟩
  · simp only [herror]
    exact hcomposes.exists_stopsWith_iff
  · intro files' path' content s c fs hpath' htext hc hfs hdivided
    have hwhole : loaded = .ok c :=
      (hok c).2 ⟨fs, hfs, hdivided.compatible, hdivided.toConfig_joined.symm⟩
    rw [hload, hwhole, load, hpath']
    simp only [htext, parse_eq, hc]
    exact ⟨rfl, rfl⟩

def naming (plugins : List String) : String :=
  plugins.foldl (fun s plugin => s ++ "  - plugin: " ++ plugin ++ "\n") "processors:\n"

/-- A system with a configuration file, and a directory with the same in two files,
which it lists backwards. -/
def dividedFiles : Files := ⟨.directory [
  ("agent.yaml", .file (Text.bytes (naming ["tags", "clone"]))),
  ("conf.d", .directory [
    ("b.yaml", .file (Text.bytes (naming ["clone"]))),
    ("a.yaml", .file (Text.bytes (naming ["tags"])))])], []⟩

theorem load_directory_composed_backwards :
    load dividedFiles "conf.d" = .ok (ofProcessors ["tags", "clone"]).toConfig ∧
      load dividedFiles "agent.yaml" = .ok (ofProcessors ["tags", "clone"]).toConfig := by
  have hread : ∀ plugins, Text.ofBytes? (Text.bytes (naming plugins)) = some (naming plugins) →
      (ConfigFragment.ofText (naming plugins)).toOption.any (namesProcessors plugins) = true →
      ofFile (Text.bytes (naming plugins)) = .ok (ofProcessors plugins) := by
    intro plugins htext hnames
    rw [ofFile_eq htext, eq_ofProcessors hnames]
    rfl
  have hwhole : ofText (naming ["tags", "clone"]) = .ok (ofProcessors ["tags", "clone"]).toConfig :=
    ofText_toConfig (by decide +kernel) (eq_ofProcessors (by decide +kernel))
  have hreads : [ofFile (Text.bytes (naming ["tags"])), ofFile (Text.bytes (naming ["clone"]))] =
      [ofProcessors ["tags"], ofProcessors ["clone"]].map .ok := by
    rw [hread ["tags"] (by decide +kernel) (by decide +kernel),
      hread ["clone"] (by decide +kernel) (by decide +kernel)]
    rfl
  have hdivided : DividedInto (ofProcessors ["tags", "clone"]).toConfig
      [ofProcessors ["tags"], ofProcessors ["clone"]] :=
    ⟨⟨none, rfl, rfl⟩, rfl, rfl, rfl, rfl, rfl⟩
  have hpath : dividedFiles.resolve "conf.d" = .ok (.directory [
      ("b.yaml", .file (Text.bytes (naming ["clone"]))),
      ("a.yaml", .file (Text.bytes (naming ["tags"])))]) := rfl
  -- The files are found in the order of the directory.
  have hfound : (fragments (reachable dividedFiles "conf.d" [
      ("b.yaml", .file (Text.bytes (naming ["clone"]))),
      ("a.yaml", .file (Text.bytes (naming ["tags"])))])).Perm
      [("a.yaml", Text.bytes (naming ["tags"])), ("b.yaml", Text.bytes (naming ["clone"]))] :=
    List.Perm.swap _ _ _
  exact (load_directory_composed hpath hfound (by decide) nofun).2.2.2.2 dividedFiles "agent.yaml"
    _ _ _ _ rfl (by decide +kernel) hwhole hreads hdivided

end Config

end MetricAgent
