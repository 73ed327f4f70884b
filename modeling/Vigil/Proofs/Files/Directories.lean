import Mathlib.Data.List.Induction
import Mathlib.Tactic.Push
import Vigil.Proofs.Files.Names
import Vigil.Proofs.Files.Walks

/-! What a path leads to, and the directories made for it: they stand where nothing stood, and
nothing else changes. -/
namespace Vigil.Files.Tree

variable {t s : Tree} {p : Place} {e : Entry} {path : String}

/-! ### Paths -/

theorem steps_cases (path : String) :
    Path.steps path = Path.words path ∨ Path.steps path = Path.words path ++ ["."] := by
  unfold Path.steps
  split <;> simp

theorem find_eq_ok : t.find path = .ok (p, e) ↔ t.locate path = .ok p ∧ t.get? p = some e := by
  unfold find
  cases t.locate path with
  | error e => simp [bind, Except.bind]
  | ok q => cases he : t.get? q <;> simp [bind, Except.bind, he] <;> grind

theorem locate_eq_ok : t.locate path = .ok p ↔
    checkPath path = .ok () ∧ t.walk linkLimit [] (Path.steps path) = .ok p := by
  unfold locate
  cases checkPath path <;> simp [bind, Except.bind]

theorem find_eq_notFound (hlocate : t.locate path = .ok p) (hnone : t.get? p = none) :
    t.find path = .error .notFound := by
  unfold find
  simp [hlocate, hnone, bind, Except.bind]

theorem find_dir : t.find path = .ok (p, .dir) ↔
    checkPath path = .ok () ∧ t.reach linkLimit [] (Path.words path) = .ok p := by
  rw [find_eq_ok, locate_eq_ok, and_assoc]
  refine and_congr_right fun _ => ⟨fun ⟨hwalk, hdir⟩ => ?_, fun hreach => ?_⟩
  · obtain hsteps | hsteps := steps_cases path
    · exact reach_of_walk (hsteps ▸ hwalk) hdir
    · rwa [hsteps] at hwalk
  · refine ⟨?_, (reach_rooted t.rooted_root hreach).get?⟩
    obtain hsteps | hsteps := steps_cases path
    · exact hsteps ▸ walk_of_reach hreach
    · rwa [hsteps]

theorem isDirectory_iff : t.isDirectory path = true ↔ ∃ p, t.find path = .ok (p, .dir) := by
  unfold isDirectory
  split <;> simp_all

theorem spot_of_words {above : List String} {last : String} (hcheck : checkPath path = .ok ())
    (hwords : Path.words path = above ++ [last]) :
    t.spot path = t.reach linkLimit [] above >>= fun dir =>
      if last = "." ∨ last = ".." then .ok (dir, none)
      else if nameLimit < last.utf8ByteSize then .error .nameTooLong else .ok (dir, some last) := by
  unfold spot
  rw [hcheck, hwords]
  dsimp only
  rw [List.dropLast_concat, List.getLast?_concat]
  change (t.reach linkLimit [] above >>= _) = _
  congr 1
  funext dir
  split
  · simp_all
  · simp_all
  · simp_all
  · rename_i name hstay hup hname
    cases hname
    have hlast : ¬(last = "." ∨ last = "..") := not_or.mpr ⟨hstay, hup⟩
    rw [if_neg hlast]

theorem spot_eq_ok {dir : Place} {name : String} : t.spot path = .ok (dir, some name) ↔
    checkPath path = .ok () ∧ IsName name ∧
      ∃ above, Path.words path = above ++ [name] ∧ t.reach linkLimit [] above = .ok dir := by
  constructor
  · intro h
    have hcheck : checkPath path = .ok () := by
      unfold spot at h
      cases hc : checkPath path with
      | ok u => rfl
      | error e => rw [hc] at h; cases h
    obtain hnil | ⟨above, last, hwords⟩ := (Path.words path).eq_nil_or_concat
    · unfold spot at h
      rw [hcheck, hnil] at h
      simp [bind, Except.bind] at h
    · rw [List.concat_eq_append] at hwords
      rw [spot_of_words hcheck hwords] at h
      cases hreach : t.reach linkLimit [] above with
      | error e => rw [hreach] at h; cases h
      | ok dir' =>
        simp only [hreach, bind, Except.bind] at h
        split at h
        · cases h
        · rename_i hlast
          rw [not_or] at hlast
          split at h
          · cases h
          · rename_i hfits
            cases h
            exact ⟨hcheck, ⟨hlast.1, hlast.2, Nat.not_lt.mp hfits⟩, above, hwords, hreach⟩
  · rintro ⟨hcheck, hname, above, hwords, hreach⟩
    rw [spot_of_words hcheck hwords, hreach]
    simp [bind, Except.bind, hname.not_here, hname.not_above, Nat.not_lt.mpr hname.fits]

/-- A path leads to a directory, or to the name at its end where that is no link. -/
theorem locate_cases (h : t.locate path = .ok p) : t.Rooted p ∨
    Path.endsInSlash path = false ∧ ∃ dir name, t.spot path = .ok (dir, some name) ∧
      ((∀ target, t.get? (dir ++ [name]) ≠ some (.link target)) → p = dir ++ [name]) := by
  obtain ⟨hcheck, hwalk⟩ := locate_eq_ok.mp h
  cases hslash : Path.endsInSlash path with
  | true =>
    simp only [Path.steps, hslash, if_true] at hwalk
    exact .inl (reach_rooted t.rooted_root hwalk)
  | false =>
    simp only [Path.steps, hslash, Bool.false_eq_true, if_false, List.append_nil] at hwalk
    by_cases hlast : ∀ before last, Path.words path = before ++ [last] → last = "." ∨ last = ".."
    · exact .inl (walk_rooted t.rooted_root hlast hwalk)
    · push Not at hlast
      obtain ⟨above, name, hwords, hstay, hup⟩ := hlast
      obtain ⟨left', happend⟩ := t.walk_append linkLimit [] above
      rw [hwords, happend _ (by simp)] at hwalk
      cases hreach : t.reach linkLimit [] above with
      | error e => rw [hreach] at hwalk; cases hwalk
      | ok dir =>
        have hend : t.walk left' dir [name] = .ok p := by rwa [hreach] at hwalk
        have hfits : name.utf8ByteSize ≤ nameLimit := by
          by_contra hlong
          rw [walk_long t left' dir [] (Nat.not_le.mp hlong)] at hend
          cases hend
        have hname : IsName name := ⟨hstay, hup, hfits⟩
        refine .inr ⟨rfl, dir, name, spot_eq_ok.mpr ⟨hcheck, hname, above, hwords, hreach⟩, ?_⟩
        intro hlink
        rw [walk_last left' hname hlink] at hend
        exact (Except.ok.inj hend).symm

/-- The name at the end of a path that does not end in a slash. -/
theorem locate_of_spot {dir : Place} {name : String} (h : t.spot path = .ok (dir, some name))
    (hslash : Path.endsInSlash path = false)
    (hlink : ∀ target, t.get? (dir ++ [name]) ≠ some (.link target)) :
    t.locate path = .ok (dir ++ [name]) := by
  obtain ⟨hcheck, hname, above, hwords, hreach⟩ := spot_eq_ok.mp h
  refine locate_eq_ok.mpr ⟨hcheck, ?_⟩
  have hsteps : Path.steps path = above ++ [name] := by simp [Path.steps, hslash, hwords]
  rw [hsteps, walk_concat hname, hreach]
  · rfl
  · intro dir' hdir
    rw [hreach] at hdir
    cases hdir
    exact hlink

theorem Keeps.find (h : t.Keeps s) (hfind : t.find path = .ok (p, e)) (he : s.get? p = some e) :
    s.find path = .ok (p, e) := by
  obtain ⟨hlocate, htree⟩ := find_eq_ok.mp hfind
  obtain ⟨hcheck, hwalk⟩ := locate_eq_ok.mp hlocate
  refine find_eq_ok.mpr ⟨locate_eq_ok.mpr ⟨hcheck, h.walk hwalk fun e' he' _ => ?_⟩, he⟩
  rw [he] at he'
  rwa [← he']

theorem Keeps.spot (h : t.Keeps s) {dir : Place} {name : String}
    (hspot : t.spot path = .ok (dir, some name)) : s.spot path = .ok (dir, some name) := by
  obtain ⟨hcheck, hname, above, hwords, hreach⟩ := spot_eq_ok.mp hspot
  exact spot_eq_ok.mpr ⟨hcheck, hname, above, hwords, h.reach t.rooted_root hreach⟩

theorem parentError?_of_spot {dir : Place} {name : String}
    (h : t.spot path = .ok (dir, some name)) : t.parentError? (dir ++ [name]).dropLast = none := by
  obtain ⟨-, -, words, -, hreach⟩ := spot_eq_ok.mp h
  rw [List.dropLast_concat, parentError?,
    if_pos (isDir_iff.mpr (reach_rooted t.rooted_root hreach).get?)]

/-- A directory at the end of a path is found, also where the path ends in a slash. -/
theorem find_of_spot {dir : Place} {name : String} (h : t.spot path = .ok (dir, some name))
    (hdir : t.get? (dir ++ [name]) = some .dir) : t.find path = .ok (dir ++ [name], .dir) := by
  obtain ⟨hcheck, hname, above, hwords, hreach⟩ := spot_eq_ok.mp h
  refine find_dir.mpr ⟨hcheck, ?_⟩
  obtain ⟨left', happend⟩ := t.walk_append linkLimit [] above
  rw [hwords, reach, List.append_assoc, happend _ (by simp), hreach]
  change t.walk left' dir (name :: ["."]) = _
  rw [walk_enter left' _ hname hdir, walk_stay, walk_nil]

/-! ### Prefixes -/

theorem checkPath_eq_ok : checkPath path = .ok () ↔
    '\x00' ∉ path.toList ∧ path ≠ "" ∧ path.utf8ByteSize ≤ pathLimit := by
  unfold checkPath
  split
  · simp_all
  · split
    · simp_all
    · split <;> simp_all

theorem checkPath_append {rest : String} (hne : path ≠ "")
    (h : checkPath (path ++ rest) = .ok ()) : checkPath path = .ok () := by
  obtain ⟨hnull, -, hfits⟩ := checkPath_eq_ok.mp h
  refine checkPath_eq_ok.mpr ⟨fun hmem => hnull ?_, hne, ?_⟩
  · rw [String.toList_append]
    exact List.mem_append_left _ hmem
  · rw [String.utf8ByteSize_append] at hfits
    omega

theorem ofNames_ne_empty (ns : List String) : Path.ofNames ns ≠ "" := by
  simp [Path.ofNames]

theorem isDirectory_root (t : Tree) : t.isDirectory (Path.ofNames []) = true := by
  refine isDirectory_iff.mpr ⟨[], find_dir.mpr ⟨checkPath_eq_ok.mpr ?_, ?_⟩⟩
  · simp [Path.ofNames, show "/".utf8ByteSize ≤ pathLimit by decide]
  · rw [Path.words_ofNames (by simp), reach, List.nil_append, walk_stay, walk_nil]

/-- A path of one name ends in the root, whatever stands there. -/
@[simp] theorem reach_nil (t : Tree) (left : Nat) (here : Place) :
    t.reach left here [] = .ok here := by
  rw [reach, List.nil_append, walk_stay, walk_nil]

theorem spot_of_name (t : Tree) {name : String} (hcheck : checkPath path = .ok ())
    (hname : IsName name) (hwords : Path.words path = [name]) :
    t.spot path = .ok ([], some name) :=
  spot_eq_ok.mpr ⟨hcheck, hname, [], hwords, t.reach_nil _ _⟩

/-- Whatever stands on the way to a directory is a directory. -/
theorem isDirectory_of_append {front back : List String}
    (hwords : ∀ n ∈ front ++ back, Path.IsWord n)
    (h : t.isDirectory (Path.ofNames (front ++ back)) = true) :
    t.isDirectory (Path.ofNames front) = true := by
  obtain ⟨p, hp⟩ := isDirectory_iff.mp h
  obtain ⟨hcheck, hreach⟩ := find_dir.mp hp
  rw [Path.words_ofNames hwords] at hreach
  obtain ⟨dir, hdir⟩ := reach_of_append hreach
  obtain ⟨rest, hrest⟩ := Path.ofNames_append front back
  refine isDirectory_iff.mpr ⟨dir, find_dir.mpr ⟨checkPath_append ?_ (hrest ▸ hcheck), ?_⟩⟩
  · exact ofNames_ne_empty front
  · rwa [Path.words_ofNames fun n hn => hwords n (List.mem_append_left _ hn)]

/-! ### Directories that are made -/

/-- The other tree has all that this one has, and besides it directories alone, which stand at the
end of certain paths. -/
structure Grown (made : String → Prop) (t s : Tree) : Prop where
  kept : ∀ ⦃p e⦄, t.get? p = some e → s.get? p = some e
  added : ∀ ⦃p e⦄, t.get? p = none → s.get? p = some e →
    ∃ path, made path ∧ s.find path = .ok (p, .dir)

namespace Grown

variable {made made' : String → Prop} {u : Tree}

theorem refl (made : String → Prop) (t : Tree) : Grown made t t :=
  ⟨fun _ _ h => h, fun _ _ hnone hsome => by rw [hnone] at hsome; cases hsome⟩

theorem keeps (h : Grown made t s) : t.Keeps s := fun _ _ he _ => h.kept he

theorem added_of_ne (h : Grown made t s) (hne : s.get? p ≠ t.get? p) :
    t.get? p = none ∧ ∃ path, made path ∧ s.find path = .ok (p, .dir) := by
  cases ht : t.get? p with
  | some e => exact absurd ((h.kept ht).trans ht.symm) hne
  | none =>
    obtain ⟨e, he⟩ := Option.ne_none_iff_exists'.mp (ht ▸ hne)
    exact ⟨rfl, h.added ht he⟩

theorem mono (h : Grown made t s) (hmade : ∀ path, made path → made' path) : Grown made' t s :=
  ⟨h.kept, fun _ _ hnone hsome =>
    let ⟨path, hpath, hfind⟩ := h.added hnone hsome
    ⟨path, hmade path hpath, hfind⟩⟩

theorem find (h : Grown made t s) (hfind : t.find path = .ok (p, e)) :
    s.find path = .ok (p, e) :=
  h.keeps.find hfind (h.kept (find_eq_ok.mp hfind).2)

theorem trans (h : Grown made t s) (h' : Grown made s u) : Grown made t u := by
  refine ⟨fun p e he => h'.kept (h.kept he), fun p e hnone hsome => ?_⟩
  cases hs : s.get? p with
  | none => exact h'.added hs hsome
  | some e' =>
    obtain ⟨path, hpath, hfind⟩ := h.added hnone hs
    exact ⟨path, hpath, h'.find hfind⟩

end Grown

theorem makeDir_eq_ok : t.makeDir path = .ok s ↔ ∃ dir name, t.spot path = .ok (dir, some name) ∧
    t.get? (dir ++ [name]) = none ∧ s = t.put (dir ++ [name]) .dir := by
  unfold makeDir
  cases hspot : t.spot path with
  | error e => simp [bind, Except.bind]
  | ok found =>
    obtain ⟨dir, last⟩ := found
    cases last with
    | none => simp [bind, Except.bind]
    | some name =>
      cases he : t.get? (dir ++ [name]) <;> simp [bind, Except.bind, he, eq_comm]

theorem makeDir_grown (h : t.makeDir path = .ok s) :
    Grown (· = path) t s ∧ s.isDirectory path = true := by
  obtain ⟨dir, name, hspot, hnone, rfl⟩ := makeDir_eq_ok.mp h
  have hget := t.get?_put (p := dir ++ [name]) (by simp) .dir
  have hkept : ∀ ⦃p e⦄, t.get? p = some e → (t.put (dir ++ [name]) .dir).get? p = some e := by
    intro p e he
    rw [hget, if_neg]
    · exact he
    · rintro rfl
      rw [hnone] at he
      cases he
  have hkeeps : t.Keeps (t.put (dir ++ [name]) .dir) := fun _ _ he _ => hkept he
  have hfind := find_of_spot (hkeeps.spot hspot) (by rw [hget, if_pos rfl])
  refine ⟨⟨hkept, fun p e hp hsome => ⟨path, rfl, ?_⟩⟩, isDirectory_iff.mpr ⟨_, hfind⟩⟩
  rw [hget] at hsome
  split at hsome
  · rename_i hp'
    rw [hp']
    exact hfind
  · rw [hp] at hsome
    cases hsome

theorem ensureDir_grown (t : Tree) (path : String) :
    Grown (· = path) t (t.ensureDir path).tree := by
  unfold ensureDir
  split
  · rename_i s hs
    exact (makeDir_grown hs).1
  · exact .refl _ t

theorem ensureDir_isDirectory (h : (t.ensureDir path).result = .ok ()) :
    (t.ensureDir path).tree.isDirectory path = true := by
  unfold ensureDir at h ⊢
  split at h
  · rename_i s hs
    exact (makeDir_grown hs).2
  · by_contra hnot
    simp [hnot] at h

/-- A path to one of the directories that the names lead through. -/
def IsOnWay (ns : List String) (path : String) : Prop :=
  ∃ front back, ns = front ++ back ∧ path = Path.ofNames front

theorem IsOnWay.append {ns : List String} {path : String} (h : IsOnWay ns path)
    (more : List String) : IsOnWay (ns ++ more) path := by
  obtain ⟨front, back, rfl, hpath⟩ := h
  exact ⟨front, back ++ more, by simp, hpath⟩

/-- The last directory is made at once, or after those before it, or not at all where one of those
fails. -/
theorem ensureDirs_concat (t : Tree) (ns : List String) (name : String) :
    t.ensureDirs (ns ++ [name]).reverse = t.ensureDir (Path.ofNames (ns ++ [name])) ∨
    (∃ e, (t.ensureDirs ns.reverse).result = .error e ∧
      t.ensureDirs (ns ++ [name]).reverse = t.ensureDirs ns.reverse) ∨
    t.ensureDirs (ns ++ [name]).reverse =
      (t.ensureDirs ns.reverse).tree.ensureDir (Path.ofNames (ns ++ [name])) := by
  rw [List.reverse_append, List.reverse_singleton, List.singleton_append, ensureDirs]
  simp only [List.reverse_cons, List.reverse_reverse]
  split
  · cases hresult : (t.ensureDirs ns.reverse).result with
    | ok u => exact .inr (.inr rfl)
    | error e => exact .inr (.inl ⟨e, rfl, rfl⟩)
  · exact .inl rfl

theorem ensureDirs_grown (t : Tree) (ns : List String) :
    Grown (IsOnWay ns) t (t.ensureDirs ns.reverse).tree := by
  induction ns using List.reverseRecOn with
  | nil => exact .refl _ t
  | append_singleton ns name ih =>
    have ih := ih.mono fun path h => h.append [name]
    have hlast (s : Tree) : Grown (IsOnWay (ns ++ [name])) s
        (s.ensureDir (Path.ofNames (ns ++ [name]))).tree := by
      refine (s.ensureDir_grown _).mono fun path hpath => ?_
      exact ⟨ns ++ [name], [], by simp, hpath⟩
    obtain h | ⟨e, -, h⟩ | h := t.ensureDirs_concat ns name
    · rw [h]
      exact hlast t
    · rw [h]
      exact ih
    · rw [h]
      exact ih.trans (hlast _)

/-- If the directories can be made they are all there. -/
theorem ensureDirs_isDirectory {ns : List String} (hwords : ∀ n ∈ ns, Path.IsWord n)
    (h : (t.ensureDirs ns.reverse).result = .ok ()) (hpath : IsOnWay ns path) :
    (t.ensureDirs ns.reverse).tree.isDirectory path = true := by
  obtain ⟨front, back, rfl, rfl⟩ := hpath
  refine isDirectory_of_append hwords ?_
  generalize front ++ back = ns at h
  obtain rfl | ⟨ns, name, rfl⟩ := ns.eq_nil_or_concat
  · exact isDirectory_root _
  · rw [List.concat_eq_append] at h ⊢
    obtain he | ⟨e, hfails, he⟩ | he := t.ensureDirs_concat ns name
    · rw [he] at h ⊢
      exact ensureDir_isDirectory h
    · rw [he, hfails] at h
      cases h
    · rw [he] at h ⊢
      exact ensureDir_isDirectory h

end Vigil.Files.Tree
