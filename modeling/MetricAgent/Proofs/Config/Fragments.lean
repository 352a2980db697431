import MetricAgent.Config.Loading
import MetricAgent.Proofs.Files.Paths
import MetricAgent.Proofs.Lists

/-!
# One file, alone or in a directory

A directory with one file in it is loaded through a fragment, and the file by its
own path as a whole configuration. The two readings differ in the agent only, and
there only on two forms: a word for nothing leaves the agent out of a fragment
and is refused in a configuration, and an empty value with the tag for nothing is
refused in a fragment and is an agent of which nothing is said in a
configuration. On all other documents they agree (`ConfigFragment.ofText_agree`),
and so the two ways to load agree exactly if neither form makes a difference
(`Config.load_directory_agree_iff`).
-/

namespace MetricAgent

open Yaml (Tree ReadError RecordField)

namespace Yaml

namespace RecordField

variable {α ρ : Type} {fields fields' : List (RecordField α ρ)}
  {key : α → Except ReadError String}

theorem find?_eq_none_iff {name : String} :
    (fields.find? fun f => f.name = name) = none ↔ name ∉ fields.map RecordField.name := by
  simp only [List.find?_eq_none, decide_eq_true_eq, List.mem_map, not_exists, not_and]

/-- Two ways to read the same fields agree on entries on whose values they agree. -/
theorem readEntries_agree (R : ρ → ρ → Prop) {entries : List (α × α)}
    (hnames : fields.map RecordField.name = fields'.map RecordField.name)
    (hread : ∀ e ∈ entries, ∀ name f f', key e.1 = .ok name →
      fields.find? (fun f => f.name = name) = some f →
      fields'.find? (fun f => f.name = name) = some f' →
      ∀ r r', R r r' → Agree R (f.read e.2 r) (f'.read e.2 r'))
    {r r' : ρ} (hr : R r r') (seen : List String) :
    Agree (fun p q => p.1 = q.1 ∧ R p.2 q.2) (readEntries fields key seen r entries)
      (readEntries fields' key seen r' entries) := by
  induction entries generalizing seen r r' with
  | nil => exact .ok ⟨rfl, hr⟩
  | cons e rest ih =>
      obtain ⟨k, v⟩ := e
      unfold readEntries
      refine agree_bind_self (key k) fun name hname => ?_
      split
      · next hnone =>
        rw [find?_eq_none_iff.2 (hnames ▸ find?_eq_none_iff.1 hnone)]
        exact .error _ _
      · next f hf =>
        cases hf' : fields'.find? fun f => f.name = name with
        | none =>
            rw [find?_eq_none_iff.2 (hnames ▸ find?_eq_none_iff.1 hf')] at hf
            cases hf
        | some f' =>
            dsimp only
            split
            · exact .error _ _
            · refine (hread _ List.mem_cons_self name f f' hname hf hf' r r' hr).bind
                fun s s' hs => ?_
              exact ih (fun e he => hread e (List.mem_cons_of_mem _ he)) hs _

/-- Of entries that can be read each has a known name and a value that can be
read. -/
theorem exists_of_readEntries {entries : List (α × α)} {seen : List String} {r : ρ}
    {p : List String × ρ} (h : readEntries fields key seen r entries = .ok p) {e : α × α}
    (he : e ∈ entries) : ∃ name f s t, key e.1 = .ok name ∧
      fields.find? (fun f => f.name = name) = some f ∧ f.read e.2 s = .ok t := by
  induction entries generalizing seen r with
  | nil => cases he
  | cons first rest ih =>
      obtain ⟨k, v⟩ := first
      obtain ⟨name, hname, h⟩ := bind_eq_ok.1 h
      split at h
      · cases h
      · next f hf =>
        split at h
        · cases h
        · obtain ⟨s, hs, h⟩ := bind_eq_ok.1 h
          rcases List.mem_cons.1 he with rfl | he
          · exact ⟨name, f, r, s, hname, hf, hs⟩
          · exact ih h he

end RecordField

namespace Tree

def isNullWord : Tree → Bool
  | .scalar tag .plain s =>
    Atom.isNullWord s && tag.all fun tag => Atom.languageTag? tag == some "null"
  | _ => false

/-- Whether a tree is left empty, with the tag for nothing. -/
def isTaggedEmpty : Tree → Bool
  | .scalar (some tag) .plain s => s == "" && Atom.languageTag? tag == some "null"
  | _ => false

end Tree

end Yaml

namespace AgentConfig

variable {t : Tree}

theorem read_of_isNullWord (h : t.isNullWord = true) : read t = .error .malformed := by
  unfold Tree.isNullWord at h
  split at h
  · next tag s =>
    have hword : s = "null" ∨ s = "Null" ∨ s = "NULL" ∨ s = "~" := by
      simpa [Yaml.Atom.isNullWord] using (Bool.and_eq_true_iff.1 h).1
    rcases hword with rfl | rfl | rfl | rfl <;> rfl
  · cases h

theorem orNothing_read_of_isTaggedEmpty (h : t.isTaggedEmpty = true) :
    Tree.orNothing read t = .error .malformed := by
  unfold Tree.isTaggedEmpty at h
  split at h
  · next tag s =>
    simp only [Bool.and_eq_true, beq_iff_eq] at h
    obtain ⟨rfl, htag⟩ := h
    unfold Tree.orNothing Tree.isNothing
    simp [htag, Yaml.Atom.isNullWord]
    rfl
  · cases h

/-- What is neither of the two forms is read alike. -/
theorem orNothing_read_agree (hword : t.isNullWord = false) (hempty : t.isTaggedEmpty = false) :
    Agree (fun a b => a.getD .default = b) (Tree.orNothing read t) (read t) := by
  have hread : Agree (fun a b => a.getD .default = b) (read t >>= fun a => .ok (some a)) (read t) := by
    cases read t with
    | ok a => exact .ok rfl
    | error e => exact .error e e
  cases t with
  | scalar tag style s =>
      have hskip : Tree.isNothing tag style s = .ok false →
          Agree (fun a b => a.getD .default = b) (Tree.orNothing read (.scalar tag style s))
            (read (.scalar tag style s)) := by
        intro hsome
        unfold Tree.orNothing
        dsimp only
        rw [hsome]
        exact hread
      by_cases hstyle : style = .plain
      · subst hstyle
        unfold Tree.isNullWord at hword
        cases tag with
        | none =>
            have hnull : Yaml.Atom.isNullWord s = false := by simpa using hword
            by_cases hs : s = ""
            · subst hs
              exact .ok rfl
            · exact hskip (by simp [Tree.isNothing, hnull, hs])
        | some tag =>
            by_cases htag : Yaml.Atom.languageTag? tag = some "null"
            · have hnull : Yaml.Atom.isNullWord s = false := by simpa [htag] using hword
              have hs : s ≠ "" := by simpa [Tree.isTaggedEmpty, htag] using hempty
              have hentries : Tree.entries (.scalar (some tag) .plain s) = .error .malformed := by
                unfold Tree.entries
                split <;> simp_all
              simp only [Tree.orNothing, Tree.isNothing, htag, hnull, read, Tree.record, hentries]
              exact .error _ _
            · exact hskip (by simp [Tree.isNothing, htag])
      · exact hskip (if_pos hstyle)
  | sequence tag items => exact hread
  | mapping tag entries => exact hread
  | broken => exact hread

end AgentConfig

theorem Config.ofText_eq (s : String) : Config.ofText s =
    (ConfigFragment.readWith (fun t => (AgentConfig.read t).map some) s).map
      ConfigFragment.toConfig := by
  unfold Config.ofText
  cases ConfigFragment.readWith (fun t => (AgentConfig.read t).map some) s <;> rfl

namespace ConfigFragment

variable {readAgent readAgent' : Tree → Except ReadError (Option AgentConfig)} {s : String}
  {f f' : ConfigFragment} {t : Tree}

/-- The values that a document gives to the agent. -/
def agentValues (s : String) : List Tree :=
  match (Yaml.Document.ofText s).root.entries with
  | .ok entries => (entries.filter fun e => e.1.text.toOption == some "agent").map Prod.snd
  | .error _ => []

/-- Whether a document has one of the two forms on which the readings of the
agent differ. -/
def voidsAgent (s : String) : Bool :=
  (agentValues s).any fun t => t.isNullWord || t.isTaggedEmpty

theorem mem_agentValues : t ∈ agentValues s ↔
    ∃ entries, (Yaml.Document.ofText s).root.entries = .ok entries ∧
      ∃ k, (k, t) ∈ entries ∧ k.text = .ok "agent" := by
  unfold agentValues
  split
  · next entries hentries =>
    have hkey : ∀ k : Tree, k.text.toOption = some "agent" ↔ k.text = .ok "agent" := by
      intro k
      cases k.text <;> simp [Except.toOption]
    simp [hentries, hkey]
  · next hentries => simp [hentries]

/-- A document is read only if the values of its agent are. -/
theorem exists_of_readWith (h : readWith readAgent s = .ok f) (ht : t ∈ agentValues s) :
    ∃ a, readAgent t = .ok a := by
  obtain ⟨entries, hentries, k, hmem, hkey⟩ := mem_agentValues.1 ht
  obtain ⟨g, hg, -⟩ := bind_eq_ok.1 h
  obtain ⟨_, hsame, hg⟩ := bind_eq_ok.1 hg
  rw [hentries] at hsame
  cases hsame
  obtain ⟨⟨seen, r⟩, hread, -⟩ := bind_eq_ok.1 hg
  obtain ⟨name, field, r₀, r₁, hname, hfield, hr⟩ := RecordField.exists_of_readEntries hread hmem
  obtain rfl : name = "agent" := Except.ok.inj (hname.symm.trans hkey)
  have hagent : field = .optional "agent" readAgent fun c x => { c with agent := x } :=
    (Option.some.inj hfield).symm
  cases ha : readAgent t with
  | ok a => exact ⟨a, rfl⟩
  | error e =>
      have herror : field.read t r₀ = .error e := by
        rw [hagent]
        exact congrArg (Except.map _) ha
      rw [herror] at hr
      cases hr

/-- The fields beside the agent change the configuration alike. -/
theorem read_agree {g : RecordField Tree ConfigFragment} (hg : g ∈ (fields readAgent).tail)
    (hf : f.toConfig = f'.toConfig) (t : Tree) :
    Agree (fun f f' => f.toConfig = f'.toConfig) (g.read t f) (g.read t f') := by
  simp only [fields, List.tail_cons, List.mem_cons, List.not_mem_nil, or_false] at hg
  rcases hg with rfl | rfl | rfl | rfl | rfl
  · exact agree_map_self _ fun x => congrArg (fun c => { c with telemetry := x }) hf
  · exact agree_map_self _ fun x => congrArg (fun c => { c with sources := x }) hf
  · exact agree_map_self _ fun x => congrArg (fun c => { c with processors := x }) hf
  · exact agree_map_self _ fun x => congrArg (fun c => { c with aggregators := x }) hf
  · exact agree_map_self _ fun x => congrArg (fun c => { c with outputs := x }) hf

/-- Two ways to read the agent that agree on the values it has in a document
give the same configuration. -/
theorem readWith_agree (h : ∀ t ∈ agentValues s,
      Agree (fun a b => a.getD .default = b.getD .default) (readAgent t) (readAgent' t)) :
    Agree (fun f f' => f.toConfig = f'.toConfig) (readWith readAgent s) (readWith readAgent' s) := by
  have hread : Agree (fun f f' => f.toConfig = f'.toConfig)
      (Tree.record (fields readAgent) empty (Yaml.Document.ofText s).root)
      (Tree.record (fields readAgent') empty (Yaml.Document.ofText s).root) := by
    refine agree_bind_self _ fun entries hentries => ?_
    have hsame : Agree (fun p q => p.1 = q.1 ∧ toConfig p.2 = toConfig q.2)
        (RecordField.readEntries (fields readAgent) Tree.text [] empty entries)
        (RecordField.readEntries (fields readAgent') Tree.text [] empty entries) := by
      have hnames : (fields readAgent).map RecordField.name =
          (fields readAgent').map RecordField.name := rfl
      refine RecordField.readEntries_agree (fun f f' => toConfig f = toConfig f') hnames
        (fun e he name g g' hname hg hg' r r' hr => ?_) rfl []
      by_cases hagent : name = "agent"
      · subst hagent
        obtain rfl := Option.some.inj hg
        obtain rfl := Option.some.inj hg'
        exact (h e.2 (mem_agentValues.2 ⟨entries, hentries, e.1, he, hname⟩)).map
          fun a b hab => congrArg₂ (fun c a => { c with agent := a }) hr hab
      · -- The fields behind the agent do not depend on how it is read.
        have hne : ¬decide ("agent" = name) = true := fun h => hagent (of_decide_eq_true h).symm
        have htail : ∀ ra, (fields ra).find? (fun g => g.name = name) =
            (fields readAgent).tail.find? fun g => g.name = name :=
          fun ra => List.find?_cons_of_neg hne
        rw [htail] at hg hg'
        obtain rfl : g = g' := Option.some.inj (hg.symm.trans hg')
        exact read_agree (List.mem_of_find?_eq_some hg) hr e.2
    refine hsame.bind ?_
    rintro ⟨seen, r⟩ ⟨_, r'⟩ ⟨rfl, hr⟩
    exact .ok hr
  refine hread.bind fun f f' hf => ?_
  split
  · exact .ok hf
  · exact .error _ _

/-- A fragment by itself is the whole configuration, if its agent is written in a
form that says the same in both. -/
theorem ofText_agree (h : voidsAgent s = false) :
    Agree (fun f c => f.toConfig = c) (ofText s) (Config.ofText s) := by
  have hvalues : ∀ t ∈ agentValues s, Agree (fun a b => a.getD .default = b.getD .default)
      (Tree.orNothing AgentConfig.read t) ((AgentConfig.read t).map some) := by
    intro t ht
    have hforms := List.any_eq_false.1 h t ht
    rw [Bool.not_eq_true, Bool.or_eq_false_iff] at hforms
    exact (AgentConfig.orNothing_read_agree hforms.1 hforms.2).map_right fun _ _ => id
  rw [Config.ofText_eq]
  exact (readWith_agree hvalues).map_right fun _ _ => id

/-- A document with one of the two forms cannot be read in both ways. -/
theorem ofText_isOk_false (h : voidsAgent s = true) :
    (ofText s).isOk = false ∨ (Config.ofText s).isOk = false := by
  obtain ⟨t, ht, hform⟩ := List.any_eq_true.1 h
  rcases Bool.or_eq_true_iff.1 hform with hword | hempty
  · refine .inr ?_
    cases hread : Config.ofText s with
    | error e => rfl
    | ok c =>
        obtain ⟨f, hf, -⟩ := bind_eq_ok.1 hread
        obtain ⟨a, ha⟩ := exists_of_readWith hf ht
        rw [AgentConfig.read_of_isNullWord hword] at ha
        cases ha
  · refine .inl ?_
    cases hread : ofText s with
    | error e => rfl
    | ok f =>
        obtain ⟨a, ha⟩ := exists_of_readWith hread ht
        rw [AgentConfig.orNothing_read_of_isTaggedEmpty hempty] at ha
        cases ha

end ConfigFragment

/-- The entries of a directory have different names, and none of them is a path. -/
structure FileTree.Listing (entries : List (String × FileTree)) : Prop where
  nodup : (entries.map Prod.fst).Nodup
  slash : ∀ name ∈ entries.map Prod.fst, '/' ∉ name.toList

namespace Config

variable {files : Files} {path name : String} {content : List UInt8}
  {entries : List (String × FileTree)}

def fragments (entries : List (String × FileTree)) : List (String × List UInt8) :=
  entries.filterMap fun (name, t) => match t with
    | .file content => if isFragmentName name then some (name, content) else none
    | _ => none

theorem fragmentFiles_eq (entries : List (String × FileTree)) :
    fragmentFiles entries = (SortedPairs.ofList (fragments entries)).map Prod.snd := rfl

theorem mem_fragments : (name, content) ∈ fragments entries ↔
    (name, .file content) ∈ entries ∧ isFragmentName name = true := by
  unfold fragments
  rw [List.mem_filterMap]
  constructor
  · rintro ⟨⟨n, t⟩, hmem, hsome⟩
    cases t with
    | file c =>
        dsimp only at hsome
        split at hsome
        · next hname =>
          cases hsome
          exact ⟨hmem, hname⟩
        · cases hsome
    | directory es => cases hsome
    | device full => cases hsome
  · rintro ⟨hmem, hname⟩
    exact ⟨_, hmem, if_pos hname⟩

/-- The name of a fragment does not lead up, nor does it stay where it is. -/
theorem ne_of_isFragmentName (h : isFragmentName name = true) :
    name ≠ "" ∧ name ≠ "." ∧ name ≠ ".." := by
  refine ⟨?_, ?_, ?_⟩
  all_goals
    rintro rfl
    cases h

/-- A file that is the only fragment of a directory and has a path of its own is
the only one that is loaded. -/
theorem ofDirectory_filter {keep : String × FileTree → Bool}
    (hone : fragments entries = [(name, content)]) (hkeep : keep (name, .file content) = true) :
    ofDirectory (entries.filter keep) =
      ConfigFragment.toConfig <$> ConfigFragment.ofFile content := by
  have hmem : (name, content) ∈ fragments entries := hone ▸ List.mem_singleton_self _
  obtain ⟨hentry, hname⟩ := mem_fragments.1 hmem
  have hsub : (fragments (entries.filter keep)).Sublist [(name, content)] :=
    hone ▸ List.filter_sublist.filterMap _
  have hkept : (name, content) ∈ fragments (entries.filter keep) :=
    mem_fragments.2 ⟨List.mem_filter.2 ⟨hentry, hkeep⟩, hname⟩
  have hfragments : fragments (entries.filter keep) = [(name, content)] := by
    rcases List.sublist_singleton.1 hsub with hnil | hsingle
    · exact absurd (hnil ▸ hkept) List.not_mem_nil
    · exact hsingle
  have hfiles : fragmentFiles (entries.filter keep) = [content] := by
    rw [fragmentFiles_eq, hfragments]
    rfl
  unfold ofDirectory
  rw [hfiles]
  change (ConfigFragment.ofFile content >>= fun f => .ok f >>= fun f => .ok f.toConfig) = _
  cases ConfigFragment.ofFile content <;> rfl

/-- Nothing can be loaded if the path of the only fragment leads nowhere. -/
theorem ofDirectory_filter_eq_error {keep : String × FileTree → Bool}
    (hone : fragments entries = [(name, content)]) (hkeep : keep (name, .file content) = false) :
    ofDirectory (entries.filter keep) = .error .noConfigFiles := by
  have hfragments : fragments (entries.filter keep) = [] := by
    refine List.eq_nil_iff_forall_not_mem.2 ?_
    rintro ⟨n, c⟩ hmem
    obtain ⟨hentry, hname⟩ := mem_fragments.1 hmem
    obtain ⟨hentry, hkept⟩ := List.mem_filter.1 hentry
    have hsame : (n, c) ∈ fragments entries := mem_fragments.2 ⟨hentry, hname⟩
    rw [hone, List.mem_singleton] at hsame
    cases hsame
    rw [hkeep] at hkept
    cases hkept
  rw [ofDirectory, fragmentFiles_eq, hfragments]
  rfl

def checked (c : Config) : Except ConfigError Config := do
  c.check.mapError .violation
  return c

theorem parse_eq (s : String) : parse s = (ofText s).mapError .unreadable >>= checked := rfl

theorem load_directory_eq (hpath : files.resolve path = .ok (.directory entries)) :
    load files path = ofDirectory (entries.filter fun e =>
      (files.resolve (Files.entryPath path e.1)).isOk) >>= checked := by
  rw [load, hpath]
  rfl

theorem ofFile_eq {s : String} (h : Text.ofBytes? content = some s) :
    ConfigFragment.ofFile content = (ConfigFragment.ofText s).mapError .unreadable := by
  rw [ConfigFragment.ofFile, h]

/-- Loading a directory with a single fragment and loading the fragment by its own
path have the same result, unless the agent is written in a form on which the two
readings differ and one of them succeeds. -/
theorem load_directory_agree_iff (hpath : files.resolve path = .ok (.directory entries))
    (hlisting : FileTree.Listing entries) (hone : fragments entries = [(name, content)]) :
    Agree (· = ·) (load files path) (load files (Files.entryPath path name)) ↔
      ∀ s, Text.ofBytes? content = some s → ConfigFragment.voidsAgent s = true →
        (load files path).isOk = false ∧ (load files (Files.entryPath path name)).isOk = false := by
  have hmem : (name, content) ∈ fragments entries := hone ▸ List.mem_singleton_self _
  obtain ⟨hentry, hname⟩ := mem_fragments.1 hmem
  have hdirectory := load_directory_eq hpath
  cases hresolve : files.resolve (Files.entryPath path name) with
  | error e =>
      have hfile : load files (Files.entryPath path name) = .error .metadata := by
        rw [load, hresolve]
      rw [ofDirectory_filter_eq_error hone (congrArg Except.isOk hresolve)] at hdirectory
      rw [hfile, hdirectory]
      exact iff_of_true (.error _ _) fun _ _ _ => ⟨rfl, rfl⟩
  | ok t =>
      obtain rfl := Files.eq_of_resolve_entryPath hpath ((mem_iff_lookup hlisting.nodup).1 hentry)
        (hlisting.slash name (List.mem_map_of_mem hentry)) (ne_of_isFragmentName hname) hresolve
      rw [ofDirectory_filter hone (congrArg Except.isOk hresolve)] at hdirectory
      cases htext : Text.ofBytes? content with
      | none =>
          have hfile : load files (Files.entryPath path name) = .error .notText := by
            rw [load, hresolve]
            simp only [htext]
          rw [ConfigFragment.ofFile, htext] at hdirectory
          rw [hfile, hdirectory]
          exact iff_of_true (.error _ _) nofun
      | some s =>
          have hfile : load files (Files.entryPath path name) =
              (ofText s).mapError .unreadable >>= checked := by
            rw [load, hresolve]
            simp only [htext, parse_eq]
          rw [ofFile_eq htext, bind_map_left] at hdirectory
          rw [hdirectory, hfile]
          cases hvoid : ConfigFragment.voidsAgent s with
          | false =>
              refine iff_of_true ?_ fun _ hs htrue => ?_
              · refine ((ConfigFragment.ofText_agree hvoid).mapError _ _).bind fun f c hc => ?_
                rw [hc]
                exact agree_refl _
              · cases hs
                rw [hvoid] at htrue
                cases htrue
          | true =>
              have hone := (ConfigFragment.ofText_isOk_false hvoid).imp
                (fun h => isOk_bind_eq_false ((isOk_mapError _ ConfigError.unreadable).trans h)
                  fun f => checked f.toConfig)
                (fun h => isOk_bind_eq_false ((isOk_mapError _ ConfigError.unreadable).trans h)
                  checked)
              exact (agree_iff_of_isOk_false hone).trans
                ⟨fun h _ _ _ => h, fun h => h s rfl hvoid⟩

def singleFile (s : String) : Files :=
  ⟨.directory [("conf.d", .directory [("agent.yaml", .file (Text.bytes s))])], []⟩

theorem load_directory_agree_iff_single :
    Agree (· = ·) (load (singleFile "agent:\n  interval: 5s\n") "conf.d")
      (load (singleFile "agent:\n  interval: 5s\n") (Files.entryPath "conf.d" "agent.yaml")) := by
  have hpath : ∀ s, (singleFile s).resolve "conf.d" =
      .ok (.directory [("agent.yaml", .file (Text.bytes s))]) := fun _ => rfl
  have hlisting : ∀ s, FileTree.Listing [("agent.yaml", .file (Text.bytes s))] := by
    refine fun s => ⟨List.nodup_singleton _, fun name hname => ?_⟩
    obtain rfl : name = "agent.yaml" := List.mem_singleton.1 hname
    decide
  have hone : ∀ s, fragments [("agent.yaml", .file (Text.bytes s))] =
      [("agent.yaml", Text.bytes s)] := fun _ => rfl
  refine (load_directory_agree_iff (hpath _) (hlisting _) (hone _)).2 fun s hs hvoid => ?_
  have htext : Text.ofBytes? (Text.bytes "agent:\n  interval: 5s\n") =
      some "agent:\n  interval: 5s\n" := by decide +kernel
  obtain rfl := Option.some.inj (htext.symm.trans hs)
  exact absurd hvoid (by decide +kernel)

/-- An agent that is nothing is taken from a directory that holds the file, and not
from the file. -/
theorem null_agent_loaded :
    (singleFile "agent: ~").resolve "conf.d" =
        .ok (.directory [("agent.yaml", .file (Text.bytes "agent: ~"))]) ∧
      fragments [("agent.yaml", .file (Text.bytes "agent: ~"))] =
        [("agent.yaml", Text.bytes "agent: ~")] ∧
      ¬Agree (· = ·) (load (singleFile "agent: ~") "conf.d")
        (load (singleFile "agent: ~") (Files.entryPath "conf.d" "agent.yaml")) := by
  have hpath : ∀ s, (singleFile s).resolve "conf.d" =
      .ok (.directory [("agent.yaml", .file (Text.bytes s))]) := fun _ => rfl
  have hone : ∀ s, fragments [("agent.yaml", .file (Text.bytes s))] =
      [("agent.yaml", Text.bytes s)] := fun _ => rfl
  have hdirectory : (load (singleFile "agent: ~") "conf.d").isOk = true := by decide +kernel
  have hfile : (load (singleFile "agent: ~") (Files.entryPath "conf.d" "agent.yaml")).isOk = false := by
    decide +kernel
  refine ⟨hpath _, hone _, fun hagree => ?_⟩
  have hfails := ((agree_iff_of_isOk_false (.inr hfile)).1 hagree).1
  rw [hdirectory] at hfails
  cases hfails

end Config

end MetricAgent
