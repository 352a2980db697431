import MetricAgent.Files.Basic
import MetricAgent.Proofs.Outcomes

/-!
# Paths into a directory

The path of an entry goes one part further than the path of its directory. If it
leads anywhere, then to the entry (`Files.eq_of_resolve_entryPath`). It may lead
nowhere although the entry is there, as a path and its parts cannot have any
length.
-/

namespace MetricAgent

namespace FileTree

theorem get?_append (t : FileTree) (names more : List String) :
    t.get? (names ++ more) = (t.get? names).bind fun u => u.get? more := by
  induction names generalizing t with
  | nil => simp
  | cons name names ih =>
      cases t with
      | directory entries =>
          simp only [List.cons_append, get?, Option.bind_assoc]
          exact congrArg _ (funext fun u => ih u)
      | file content => rfl
      | device full => rfl

end FileTree

namespace Files

variable {f : Files} {path name : String} {entries : List (String × FileTree)} {t u : FileTree}

theorem pathParts_append_slash (part cs rest : List Char) :
    pathParts part (cs ++ '/' :: rest) = pathParts part cs ++ pathParts [] rest := by
  induction cs generalizing part with
  | nil => simp [pathParts]
  | cons c cs ih =>
      rw [List.cons_append, pathParts, pathParts]
      split
      · rw [ih, List.cons_append]
      · exact ih _

theorem pathParts_of_not_mem {cs : List Char} (h : '/' ∉ cs) (part : List Char) :
    pathParts part cs = [String.ofList (part.reverse ++ cs)] := by
  induction cs generalizing part with
  | nil => simp [pathParts]
  | cons c cs ih =>
      obtain ⟨hc, hcs⟩ := not_or.1 (mt List.mem_cons.2 h)
      rw [pathParts, if_neg (Ne.symm hc), ih hcs]
      simp

theorem follow_append (place parts more : List String) :
    f.follow place (parts ++ more) =
      f.follow place parts >>= fun names => f.follow names.reverse more := by
  induction parts generalizing place with
  | nil =>
      rw [List.nil_append, follow_nil]
      exact (congrArg (fun p => f.follow p more) (List.reverse_reverse place)).symm
  | cons part parts ih =>
      rw [List.cons_append, follow, follow]
      cases f.entries place.reverse with
      | error e => rfl
      | ok found =>
          dsimp only
          split
          · exact ih _
          · split
            · exact ih _
            · cases checkPart part with
              | error e => rfl
              | ok _ =>
                  dsimp only
                  split
                  · exact ih _
                  · rfl

/-- Only a name leads from a directory down to something. -/
theorem eq_of_follow_name {place names : List String} (hentries : f.entries place = .ok entries)
    (hname : name ≠ "" ∧ name ≠ "." ∧ name ≠ "..")
    (h : f.follow place.reverse [name] = .ok names) : names = place ++ [name] := by
  rw [follow, List.reverse_reverse, hentries] at h
  dsimp only at h
  rw [if_neg (not_or.2 ⟨hname.1, hname.2.1⟩), if_neg hname.2.2] at h
  cases hpart : checkPart name with
  | error e => simp [hpart] at h
  | ok _ =>
      simp only [hpart] at h
      split at h
      · rw [follow_nil] at h
        cases h
        exact List.reverse_cons.trans (by rw [List.reverse_reverse])
      · cases h

theorem entries_eq_ok {place : List String} :
    f.entries place = .ok entries ↔ f.root.get? place = some (.directory entries) := by
  unfold Files.entries
  split
  · next found hfound => simp [hfound]
  · next hother => exact ⟨nofun, fun hdirectory => absurd hdirectory (hother entries)⟩

/-- What a path leads to lies at the place where its parts lead. -/
theorem resolve_eq_ok : f.resolve path = .ok t ↔ checkPath path = .ok () ∧
    ∃ place, f.follow (f.start path).reverse (pathParts [] path.toList) = .ok place ∧
      f.root.get? place = some t := by
  unfold resolve
  rw [then_eq_ok, bind_eq_ok]
  refine and_congr_right fun _ => exists_congr fun place => and_congr_right fun _ => ?_
  cases f.root.get? place with
  | none => exact ⟨nofun, nofun⟩
  | some u => exact ⟨fun h => by cases h; rfl, fun h => by cases h; rfl⟩

/-- The parts of the path of an entry lead on from where the parts of the path
of its directory lead. -/
theorem follow_entryPath (hname : '/' ∉ name.toList) {start place : List String}
    (h : f.follow start (pathParts [] path.toList) = .ok place) :
    f.follow start (pathParts [] (entryPath path name).toList) = f.follow place.reverse [name] := by
  have hparts : pathParts [] name.toList = [name] := by
    rw [pathParts_of_not_mem hname]
    simp
  unfold entryPath
  split
  · next hslash =>
    -- The path ends in a slash, behind which there is an empty part.
    obtain ⟨cs, hcs⟩ := List.getLast?_eq_some_iff.1 hslash
    rw [hcs, pathParts_append_slash, follow_append] at h
    obtain ⟨before, hbefore, hlast⟩ := bind_eq_ok.1 h
    have hempty : before = place := by
      rw [pathParts, follow, List.reverse_reverse] at hlast
      cases hfound : f.entries before with
      | error e => simp [hfound] at hlast
      | ok found => simpa [hfound] using hlast
    rw [String.toList_append, hcs, List.append_assoc, List.singleton_append, pathParts_append_slash,
      hparts, follow_append, hbefore, hempty]
    rfl
  · rw [String.append_assoc, String.toList_append, String.toList_append]
    have hone : "/".toList ++ name.toList = '/' :: name.toList := rfl
    rw [hone, pathParts_append_slash, hparts, follow_append, h]
    rfl

theorem start_entryPath (hpath : path ≠ "") : f.start (entryPath path name) = f.start path := by
  have hne : path.toList ≠ [] := fun h => hpath (String.toList_eq_nil_iff.1 h)
  have hhead : (entryPath path name).toList.head? = path.toList.head? := by
    unfold entryPath
    split <;> simp [List.head?_append, List.head?_eq_some_head hne]
  unfold start
  rw [hhead]

/-- The path of an entry leads to nothing but the entry. -/
theorem eq_of_resolve_entryPath (h : f.resolve path = .ok (.directory entries))
    (hentry : entries.lookup name = some t) (hslash : '/' ∉ name.toList)
    (hname : name ≠ "" ∧ name ≠ "." ∧ name ≠ "..")
    (hu : f.resolve (entryPath path name) = .ok u) : u = t := by
  obtain ⟨hcheck, place, hfollow, hplace⟩ := resolve_eq_ok.1 h
  have hpath : path ≠ "" := by
    rintro rfl
    cases hcheck
  obtain ⟨-, names, hnames, hfound⟩ := resolve_eq_ok.1 hu
  rw [start_entryPath hpath, follow_entryPath hslash hfollow] at hnames
  rw [eq_of_follow_name (entries_eq_ok.2 hplace) hname hnames, FileTree.get?_append, hplace,
    Option.bind_some, FileTree.get?, hentry, Option.bind_some, FileTree.get?_nil] at hfound
  exact (Option.some.inj hfound).symm

end Files

end MetricAgent
