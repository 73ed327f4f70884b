import Vigil.Files.JsonFile
import Vigil.Proofs.Files.Directories

/-! The steps of replacing a JSON file: directories are made above its path, a sibling is written
beside it, and the sibling is moved to the path unless that refuses it. -/
namespace Vigil.Files

namespace Tree

variable {t s : Tree} {path : String} {bytes : List UInt8}

/-! ### Writing and moving -/

/-- What can stand at the end of a path that is written to, without something else being changed. -/
def Plain (t : Tree) (path : String) : Prop :=
  ∀ ⦃dir name e⦄, t.spot path = .ok (dir, some name) → t.get? (dir ++ [name]) = some e →
    e = .dir ∨ ∃ bytes, e = .file bytes

theorem Plain.not_link (h : t.Plain path) {dir : Place} {name : String}
    (hspot : t.spot path = .ok (dir, some name)) (target : String) :
    t.get? (dir ++ [name]) ≠ some (.link target) := fun hlink => by
  obtain hdir | ⟨bytes, hfile⟩ := h hspot hlink
  · cases hdir
  · cases hfile

/-- Where a plain file is written: at the spot of the path, which held a file or nothing. -/
structure Writes (t : Tree) (path : String) (bytes : List UInt8) (s : Tree) (dir : Place)
    (name : String) : Prop where
  spot : t.spot path = .ok (dir, some name)
  noSlash : Path.endsInSlash path = false
  free : ∀ e, t.get? (dir ++ [name]) = some e → e.leadsOn = false
  result : s = t.put (dir ++ [name]) (.file bytes)

theorem write_eq_ok {p : Place} (h : t.write p bytes = .ok s) :
    t.get? p ≠ some .dir ∧ (t.get? p = some .device ∨ s = t.put p (.file bytes)) := by
  unfold write at h
  split at h
  · cases h
  · split at h
    · cases h
    · rename_i hdevice
      cases h
      simp [hdevice]
    · rename_i hdir _
      cases h
      exact ⟨hdir, .inr rfl⟩

theorem writes_of_writeAt (hplain : t.Plain path) (h : t.writeAt path bytes = .ok s) :
    ∃ dir name, t.Writes path bytes s dir name := by
  unfold writeAt at h
  cases hlocate : t.locate path with
  | error e => rw [hlocate] at h; cases h
  | ok p =>
    rw [hlocate] at h
    obtain ⟨hdir, hput⟩ := write_eq_ok h
    obtain hrooted | ⟨hslash, dir, name, hspot, hp⟩ := locate_cases hlocate
    · exact absurd hrooted.get? hdir
    · obtain rfl := hp (hplain.not_link hspot)
      refine ⟨dir, name, hspot, hslash, fun e he => ?_, ?_⟩
      · obtain rfl | ⟨old, rfl⟩ := hplain hspot he
        · exact absurd he hdir
        · rfl
      · refine hput.resolve_left fun hdevice => ?_
        obtain hcases | ⟨old, hcases⟩ := hplain hspot hdevice <;> cases hcases

theorem writeAt_of_locate {p : Place} (h : t.locate path = .ok p) (bytes : List UInt8) :
    t.writeAt path bytes = t.write p bytes := by
  rw [writeAt, h]
  rfl

theorem writeAt_of_spot {dir : Place} {name : String} (hspot : t.spot path = .ok (dir, some name))
    (hslash : Path.endsInSlash path = false)
    (hfree : ∀ e, t.get? (dir ++ [name]) = some e → ∃ old, e = .file old) (bytes : List UInt8) :
    t.writeAt path bytes = .ok (t.put (dir ++ [name]) (.file bytes)) := by
  have hlocate : t.locate path = .ok (dir ++ [name]) := by
    refine locate_of_spot hspot hslash fun target hlink => ?_
    obtain ⟨old, hold⟩ := hfree _ hlink
    cases hold
  rw [writeAt_of_locate hlocate, write, parentError?_of_spot hspot]
  cases he : t.get? (dir ++ [name]) with
  | none => rfl
  | some e =>
    obtain ⟨old, rfl⟩ := hfree e he
    rfl

namespace Writes

variable {dir : Place} {name : String} (h : t.Writes path bytes s dir name)
include h

theorem get? (p : Place) :
    s.get? p = if p = dir ++ [name] then some (.file bytes) else t.get? p := by
  rw [h.result]
  exact t.get?_put (by simp) _ p

theorem keeps : t.Keeps s := fun p e he hon => by
  rw [h.get?, if_neg]
  · exact he
  · rintro rfl
    rw [h.free e he] at hon
    cases hon

theorem keeps_back : s.Keeps t := fun p e he hon => by
  rw [h.get?] at he
  split at he
  · cases he
    cases hon
  · exact he

theorem locate : t.locate path = .ok (dir ++ [name]) :=
  locate_of_spot h.spot h.noSlash fun target hlink => by
    have := h.free _ hlink
    cases this

theorem locate_after : s.locate path = .ok (dir ++ [name]) :=
  locate_of_spot (h.keeps.spot h.spot) h.noSlash fun target hlink => by
    rw [h.get?, if_pos rfl] at hlink
    cases hlink

/-- Paths lead where they led. -/
theorem locate_iff {other : String} {p : Place} :
    s.locate other = .ok p ↔ t.locate other = .ok p := by
  rw [locate_eq_ok, locate_eq_ok]
  refine and_congr_right fun _ => ⟨fun hwalk => ?_, fun hwalk => ?_⟩
  · exact h.keeps_back.walk hwalk fun e he hon => h.keeps he hon
  · exact h.keeps.walk hwalk fun e he hon => h.keeps_back he hon

/-- What stands elsewhere is found as before. -/
theorem find {other : String} {p : Place} {e : Entry} (hfind : t.find other = .ok (p, e))
    (hne : p ≠ dir ++ [name]) : s.find other = .ok (p, e) := by
  refine h.keeps.find hfind ?_
  rw [h.get?, if_neg hne]
  exact (find_eq_ok.mp hfind).2

end Writes

theorem moveFile_of_spots {source target : String} {above dir : Place} {old name : String}
    (hsource : t.spot source = .ok (above, some old))
    (hsourceSlash : Path.endsInSlash source = false)
    (htarget : t.spot target = .ok (dir, some name))
    (htargetSlash : Path.endsInSlash target = false) :
    t.moveFile source target = t.rename (above ++ [old]) (dir ++ [name]) := by
  rw [moveFile, hsource, htarget]
  change (if _ then _ else _) = _
  rw [hsourceSlash, htargetSlash]
  rfl

/-- A file is moved to a name, unless that of a directory. -/
theorem moveFile_eq_ok {source : String} {above : Place} {old : String}
    (hsource : t.spot source = .ok (above, some old)) (hslash : Path.endsInSlash source = false)
    (hfile : t.get? (above ++ [old]) = some (.file bytes)) : t.moveFile source path = .ok s ↔
      ∃ dir name, t.spot path = .ok (dir, some name) ∧ Path.endsInSlash path = false ∧
        t.get? (dir ++ [name]) ≠ some .dir ∧
        s = (t.erase (above ++ [old])).put (dir ++ [name]) (.file bytes) := by
  unfold moveFile
  rw [hsource]
  cases htarget : t.spot path with
  | error e => simp [bind, Except.bind]
  | ok found =>
    obtain ⟨dir, last⟩ := found
    cases last with
    | none => simp [bind, Except.bind]
    | some name =>
      have hdir := parentError?_of_spot htarget
      have hrename : t.rename (above ++ [old]) (dir ++ [name]) =
          if t.isDir (dir ++ [name]) then .error .isADirectory
          else .ok ((t.erase (above ++ [old])).put (dir ++ [name]) (.file bytes)) := by
        simp only [rename, hfile, hdir]
      simp only [bind, Except.bind, hslash, Bool.false_or, hrename]
      constructor
      · intro h
        split at h
        · cases h
        · rename_i hnoSlash
          split at h
          · cases h
          · rename_i hnoDir
            cases h
            exact ⟨dir, name, rfl, by simpa using hnoSlash, mt isDir_iff.mpr hnoDir, rfl⟩
      · rintro ⟨dir', name', hspot, hnoSlash, hnoDir, rfl⟩
        cases hspot
        rw [if_neg (by simp [hnoSlash]), if_neg (mt isDir_iff.mp hnoDir)]

end Tree

namespace Attempt

variable {a : Attempt} {e : FileError}

theorem next_of_error (h : a.result = .error e) (step : Tree → Except FileError Tree) :
    a.next step = ⟨a.tree, .error e⟩ := by
  obtain ⟨tree, result⟩ := a
  cases h
  rfl

theorem next_of_fails (h : a.result = .ok ()) (step : Tree → Except FileError Tree)
    (hstep : step a.tree = .error e) : a.next step = ⟨a.tree, .error e⟩ := by
  simp [next, h, hstep]

theorem next_of_ok (h : a.result = .ok ()) (step : Tree → Except FileError Tree) {s : Tree}
    (hstep : step a.tree = .ok s) : a.next step = ⟨s, .ok ()⟩ := by
  simp [next, h, hstep]

end Attempt

/-! ### The steps of a replacement -/

/-- The path that is written first. -/
def siblingOf (path : String) : String := Path.withExtension path "json.tmp"

/-- What was made of the directories above the path. -/
def prepared (t : Tree) (path : String) : Attempt :=
  t.ensureDirs ((Path.names path).reverse.drop 1)

/-- The text that the file gets. -/
def textOf (v : Json.Value) : List UInt8 := Utf8.encode (Json.pretty v)

/-- How far a replacement gets once the directories are made, or are not. -/
inductive Course (m : Attempt) (path : String) (v : Json.Value) : Attempt → Prop
  | blocked (e : FileError) (hfails : m.result = .error e) : Course m path v ⟨m.tree, .error e⟩
  | unwritten (e : FileError) (hmade : m.result = .ok ())
    (hfails : m.tree.writeAt (siblingOf path) (textOf v) = .error e) :
    Course m path v ⟨m.tree, .error e⟩
  | unmoved (s : Tree) (e : FileError) (hmade : m.result = .ok ())
    (hwrite : m.tree.writeAt (siblingOf path) (textOf v) = .ok s)
    (hfails : s.moveFile (siblingOf path) path = .error e) : Course m path v ⟨s, .error e⟩
  | moved (s u : Tree) (hmade : m.result = .ok ())
    (hwrite : m.tree.writeAt (siblingOf path) (textOf v) = .ok s)
    (hmove : s.moveFile (siblingOf path) path = .ok u) : Course m path v ⟨u, .ok ()⟩

variable {t s : Tree} {path : String} {v : Json.Value}

theorem writeJson_course (t : Tree) (path : String) (v : Json.Value) :
    Course (prepared t path) path v (writeJson t path v) := by
  let write (t : Tree) : Except FileError Tree := t.writeAt (siblingOf path) (textOf v)
  let move (t : Tree) : Except FileError Tree := t.moveFile (siblingOf path) path
  change Course (prepared t path) path v (((prepared t path).next write).next move)
  generalize prepared t path = m
  cases hmade : m.result with
  | error e =>
    rw [Attempt.next_of_error hmade, Attempt.next_of_error (a := ⟨m.tree, .error e⟩) rfl]
    exact .blocked e hmade
  | ok u =>
    cases hwrite : write m.tree with
    | error e =>
      rw [Attempt.next_of_fails hmade write hwrite,
        Attempt.next_of_error (a := ⟨m.tree, .error e⟩) rfl]
      exact .unwritten e hmade hwrite
    | ok s =>
      rw [Attempt.next_of_ok hmade write hwrite]
      cases hmove : move s with
      | error e =>
        rw [Attempt.next_of_fails (a := ⟨s, .ok ()⟩) rfl move hmove]
        exact .unmoved s e hmade hwrite hmove
      | ok u =>
        rw [Attempt.next_of_ok (a := ⟨s, .ok ()⟩) rfl move hmove]
        exact .moved s u hmade hwrite hmove

/-- The steps go well one after the other. -/
theorem writeJson_of_steps {m u : Tree} (hmade : prepared t path = .start m)
    (hwrite : m.writeAt (siblingOf path) (textOf v) = .ok s)
    (hmove : s.moveFile (siblingOf path) path = .ok u) : writeJson t path v = ⟨u, .ok ()⟩ := by
  have hcourse := writeJson_course t path v
  rw [hmade] at hcourse
  generalize writeJson t path v = a at hcourse
  cases hcourse with
  | blocked e hfails => cases hfails
  | unwritten e _ hfails => cases hwrite.symm.trans hfails
  | unmoved s' e _ hwrite' hfails =>
    cases hwrite.symm.trans hwrite'
    cases hmove.symm.trans hfails
  | moved s' u' _ hwrite' hmove' =>
    cases hwrite.symm.trans hwrite'
    cases hmove.symm.trans hmove'
    rfl

/-! ### The names that a replacement uses -/

/-- Where a path ends in a name the sibling has another name in the same directory. -/
theorem siblingOf_cases (path : String) :
    (∀ words last, Path.words path = words ++ [last] → last = "." ∨ last = "..") ∨
    ∃ above name body, Path.names path = above ++ [name] ∧ body ≠ name ∧
      Path.words (siblingOf path) = above ++ [body] ∧
      Path.endsInSlash (siblingOf path) = false := by
  by_cases h : ∀ above name, Path.names path = above ++ [name] → name = ".."
  · left
    intro words last hwords
    by_contra hlast
    rw [not_or] at hlast
    exact hlast.2 (h _ _ (Path.names_of_words hwords hlast.1))
  · push Not at h
    obtain ⟨above, name, hnames, hne⟩ := h
    obtain ⟨body, hbody, hwords, hslash⟩ :=
      Path.withExtension_of_name "json.tmp" hnames hne (by decide)
    exact .inr ⟨above, name, body, hnames, hbody (by decide), hwords, hslash⟩

/-- The sibling's name follows the same words, up to single points. -/
theorem words_sibling {words above : List String} {name body : String} (hname : Tree.IsName name)
    (hwords : Path.words path = words ++ [name])
    (hsibling : Path.words (siblingOf path) = above ++ [body]) :
    body ≠ name ∧ ∀ (t : Tree) (left : Nat) (here : Place),
      t.reach left here words = t.reach left here above := by
  have hnames := Path.names_of_words hwords hname.not_here
  obtain hlast | ⟨above', name', body', hnames', hne, hall, -⟩ := siblingOf_cases path
  · obtain h | h := hlast words name hwords
    · exact absurd h hname.not_here
    · exact absurd h hname.not_above
  · obtain ⟨rfl, hlast⟩ := List.append_inj' (hsibling.symm.trans hall) rfl
    obtain ⟨habove, hlast'⟩ := List.append_inj' (hnames.symm.trans hnames') rfl
    cases hlast
    cases hlast'
    refine ⟨hne, fun t left here => t.reach_congr left here ?_⟩
    rw [← habove, List.filter_filter]
    simp

/-- In any tree the sibling stands in the directory of the path, under another name. -/
theorem spot_sibling {m : Tree} {dir dir' : Place} {name body : String}
    (hspot : t.spot path = .ok (dir, some name))
    (hsibling : m.spot (siblingOf path) = .ok (dir', some body)) :
    body ≠ name ∧ t.spot (siblingOf path) = .ok (dir, some body) := by
  obtain ⟨-, hname, words, hwords, hreach⟩ := Tree.spot_eq_ok.mp hspot
  obtain ⟨hcheck, hbody, above, hwords', -⟩ := Tree.spot_eq_ok.mp hsibling
  obtain ⟨hne, hsame⟩ := words_sibling hname hwords hwords'
  refine ⟨hne, Tree.spot_eq_ok.mpr ⟨hcheck, hbody, above, hwords', ?_⟩⟩
  rw [← hsame, hreach]

/-- The words of a path that ends in a name, and of its sibling. -/
@[mk_iff]
structure Laid (path : String) (above : List String) (name body : String) : Prop where
  isName : Tree.IsName name
  isBody : Tree.IsName body
  check : Tree.checkPath path = .ok ()
  checkSibling : Tree.checkPath (siblingOf path) = .ok ()
  words : Path.words path = above ++ [name]
  wordsSibling : Path.words (siblingOf path) = above ++ [body]
  noSlash : Path.endsInSlash path = false

instance (path : String) (above : List String) (name body : String) :
    Decidable (Laid path above name body) :=
  decidable_of_iff _ (laid_iff path above name body).symm

namespace Laid

variable {above : List String} {name body : String} (h : Laid path above name body)
include h

theorem noSlashSibling : Path.endsInSlash (siblingOf path) = false := by
  obtain hlast | ⟨-, -, -, -, -, -, hslash⟩ := siblingOf_cases path
  · obtain hhere | habove := hlast above name h.words
    · exact absurd hhere h.isName.not_here
    · exact absurd habove h.isName.not_above
  · exact hslash

theorem body_ne : body ≠ name := (words_sibling h.isName h.words h.wordsSibling).1

theorem steps : Path.steps path = above ++ [name] := by
  simp [Path.steps, h.words, h.noSlash]

theorem stepsSibling : Path.steps (siblingOf path) = above ++ [body] := by
  simp [Path.steps, h.wordsSibling, h.noSlashSibling]

variable {dir : Place} (hreach : t.reach linkLimit [] above = .ok dir)
include hreach

theorem spot : t.spot path = .ok (dir, some name) :=
  Tree.spot_eq_ok.mpr ⟨h.check, h.isName, above, h.words, hreach⟩

theorem spotSibling : t.spot (siblingOf path) = .ok (dir, some body) :=
  Tree.spot_eq_ok.mpr ⟨h.checkSibling, h.isBody, above, h.wordsSibling, hreach⟩

theorem moveFile : t.moveFile (siblingOf path) path = t.rename (dir ++ [body]) (dir ++ [name]) :=
  Tree.moveFile_of_spots (h.spotSibling hreach) h.noSlashSibling (h.spot hreach) h.noSlash

end Laid

/-! ### Links -/

/-- Beside the path stands a file, a directory or nothing: a link there would be written through.
Where the path itself is a link, it does not stand for its sibling, and the way to it does not lead
through it. -/
structure OwnNames (t : Tree) (path : String) : Prop where
  beside : t.Plain (siblingOf path)
  apart : ∀ ⦃dir name target p⦄, t.spot path = .ok (dir, some name) →
    t.get? (dir ++ [name]) = some (.link target) → t.locate (siblingOf path) = .ok p →
    t.locate path ≠ .ok p
  direct : ∀ ⦃dir name target⦄, t.spot path = .ok (dir, some name) →
    t.get? (dir ++ [name]) = some (.link target) →
    (t.erase (dir ++ [name])).spot path = .ok (dir, some name)

namespace OwnNames

variable {m : Tree}

/-- Only a directory is at the end of the path and of its sibling. -/
theorem get?_of_both (own : OwnNames m path) {p : Place}
    (hsibling : m.locate (siblingOf path) = .ok p) (hpath : m.locate path = .ok p) :
    m.get? p = some .dir := by
  obtain hrooted | ⟨-, dir, name, hspot, hp⟩ := Tree.locate_cases hpath
  · exact hrooted.get?
  · obtain hrooted | ⟨-, dir', body, hspot', hp'⟩ := Tree.locate_cases hsibling
    · exact hrooted.get?
    · have hlink (target : String) : m.get? (dir ++ [name]) ≠ some (.link target) :=
        fun hlink => own.apart hspot hlink hsibling hpath
      obtain rfl := hp hlink
      have hsame := hp' (own.beside.not_link hspot')
      obtain ⟨hne, hspot''⟩ := spot_sibling hspot hspot'
      rw [hspot'] at hspot''
      cases hspot''
      exact absurd (by simpa using hsame.symm) hne

/-- The way to a path is there without what stands at its end, unless that is a directory. -/
theorem spot_erase (own : OwnNames m path) {dir : Place} {name : String}
    (hspot : m.spot path = .ok (dir, some name)) (hdir : m.get? (dir ++ [name]) ≠ some .dir) :
    (m.erase (dir ++ [name])).spot path = .ok (dir, some name) := by
  by_cases hlink : ∃ target, m.get? (dir ++ [name]) = some (.link target)
  · obtain ⟨target, hlink⟩ := hlink
    exact own.direct hspot hlink
  · refine Tree.Keeps.spot (fun p e he hon => ?_) hspot
    rw [m.get?_erase (by simp), if_neg]
    · exact he
    · rintro rfl
      cases e with
      | dir => exact hdir he
      | link target => exact hlink ⟨target, he⟩
      | file bytes | device => cases hon

end OwnNames

/-! ### Before the move -/

def IsAbove (path dir : String) : Prop := Tree.IsOnWay (Path.names path).dropLast dir

theorem isWord_above {name : String} (h : name ∈ (Path.names path).dropLast) : Path.IsWord name :=
  Path.isWord_of_mem_names (List.dropLast_subset _ h)

theorem prepared_eq (t : Tree) (path : String) :
    prepared t path = t.ensureDirs (Path.names path).dropLast.reverse := by
  rw [prepared, List.drop_one, List.tail_reverse]

/-- Nothing is made above a name below the root. -/
theorem Laid.prepared {name body : String} (h : Laid path [] name body) (t : Tree) :
    prepared t path = .start t := by
  have hnames : Path.names path = [name] := Path.names_of_words h.words h.isName.not_here
  rw [Files.prepared, hnames]
  rfl

theorem prepared_grown (t : Tree) (path : String) :
    Tree.Grown (IsAbove path) t (prepared t path).tree := by
  rw [prepared_eq]
  exact t.ensureDirs_grown _

theorem prepared_isDirectory (h : (prepared t path).result = .ok ()) {dir : String}
    (hdir : IsAbove path dir) : (prepared t path).tree.isDirectory dir = true := by
  rw [prepared_eq] at h ⊢
  exact Tree.ensureDirs_isDirectory (fun _ => isWord_above) h hdir

/-- The names are the path's own, unless the sibling cannot be written. -/
def OwnIfWritten (m : Attempt) (path : String) : Prop :=
  m.result = .ok () → ∀ ⦃bytes s⦄, m.tree.writeAt (siblingOf path) bytes = .ok s →
    OwnNames m.tree path

theorem OwnNames.ifWritten {m : Attempt} (own : OwnNames m.tree path) : OwnIfWritten m path :=
  fun _ _ _ _ => own

/-- Where files and directories alone stand there is no link to be careful with. -/
theorem ownNames_of_plain (h : ∀ x ∈ t.entries, x.2 = .dir ∨ ∃ bytes, x.2 = .file bytes)
    (path : String) : OwnNames (prepared t path).tree path := by
  have hgrown := prepared_grown t path
  have hplain (p : Place) (e : Entry) (he : (prepared t path).tree.get? p = some e) :
      e = .dir ∨ ∃ bytes, e = .file bytes := by
    cases ht : t.get? p with
    | some e' =>
      rw [hgrown.kept ht] at he
      cases he
      obtain ⟨-, rfl⟩ | hmem := Tree.mem_of_get? ht
      · exact .inl rfl
      · exact h _ hmem
    | none =>
      obtain ⟨dir, -, hfind⟩ := hgrown.added ht he
      rw [(Tree.find_eq_ok.mp hfind).2] at he
      cases he
      exact .inl rfl
  have hlink (p : Place) (target : String) : (prepared t path).tree.get? p ≠ some (.link target) :=
    fun hlink => by simpa using hplain p _ hlink
  exact ⟨fun _ _ e _ he => hplain _ e he, fun _ _ target _ _ he => absurd he (hlink _ target),
    fun _ _ target _ he => absurd he (hlink _ target)⟩

/-- What the path led to is still there, and if it led nowhere it leads to nothing new but a
directory. -/
structure Kept (path : String) (t s : Tree) : Prop where
  found : ∀ ⦃x⦄, t.find path = .ok x → s.find path = .ok x
  only : ∀ ⦃p e⦄, s.find path = .ok (p, e) → t.get? p = some e ∨ t.get? p = none ∧ e = .dir

namespace Kept

theorem of_grown {made : String → Prop} (h : Tree.Grown made t s) : Kept path t s := by
  refine ⟨fun _ hx => h.find hx, fun p e hfind => ?_⟩
  have he := (Tree.find_eq_ok.mp hfind).2
  cases ht : t.get? p with
  | some e' =>
    rw [h.kept ht] at he
    exact .inl he
  | none =>
    obtain ⟨dir, -, hdir⟩ := h.added ht he
    rw [(Tree.find_eq_ok.mp hdir).2] at he
    cases he
    exact .inr ⟨rfl, rfl⟩

/-- The sibling is written beside what the path leads to. -/
theorem of_writes {m : Tree} {bytes : List UInt8} {dir : Place} {body : String}
    {made : String → Prop} (hgrown : Tree.Grown made t m) (own : OwnNames m path)
    (h : m.Writes (siblingOf path) bytes s dir body) : Kept path t s := by
  have hne (p : Place) (hp : m.locate path = .ok p) : p ≠ dir ++ [body] := by
    rintro rfl
    have := h.free _ (own.get?_of_both h.locate hp)
    cases this
  refine ⟨fun ⟨p, e⟩ hx => ?_, fun p e hfind => ?_⟩
  · have hm := hgrown.find hx
    exact h.find hm (hne p (Tree.find_eq_ok.mp hm).1)
  · obtain ⟨hlocate, he⟩ := Tree.find_eq_ok.mp hfind
    have hlocate := h.locate_iff.mp hlocate
    rw [h.get?, if_neg (hne p hlocate)] at he
    exact (of_grown hgrown).only (Tree.find_eq_ok.mpr ⟨hlocate, he⟩)

end Kept

/-! ### After the move -/

/-- The tree `u` that `m` becomes when the file has been moved from the sibling to the path. -/
structure Moved (m : Tree) (path : String) (bytes : List UInt8) (u : Tree) (dir : Place)
    (body name : String) : Prop where
  own : OwnNames m path
  spot : m.spot path = .ok (dir, some name)
  noSlash : Path.endsInSlash path = false
  noDir : m.get? (dir ++ [name]) ≠ some .dir
  sibling : m.spot (siblingOf path) = .ok (dir, some body)
  siblingNoSlash : Path.endsInSlash (siblingOf path) = false
  free : ∀ e, m.get? (dir ++ [body]) = some e → e.leadsOn = false
  differ : body ≠ name
  get? : ∀ p, u.get? p = if p = dir ++ [name] then some (.file bytes)
    else if p = dir ++ [body] then none else m.get? p

theorem moved_of_writes {m u : Tree} {bytes : List UInt8} {dir : Place} {body : String}
    (own : OwnNames m path) (h : m.Writes (siblingOf path) bytes s dir body)
    (hmove : s.moveFile (siblingOf path) path = .ok u) :
    ∃ name, Moved m path bytes u dir body name := by
  have hfile : s.get? (dir ++ [body]) = some (.file bytes) := by rw [h.get?, if_pos rfl]
  obtain ⟨dir', name, hspot, hslash, hdir, rfl⟩ :=
    (Tree.moveFile_eq_ok (h.keeps.spot h.spot) h.noSlash hfile).mp hmove
  have hm := h.keeps_back.spot hspot
  obtain ⟨hne, hsibling⟩ := spot_sibling hm h.spot
  rw [h.spot] at hsibling
  cases hsibling
  have hplaces : dir ++ [name] ≠ dir ++ [body] := by simpa using hne.symm
  rw [h.get?, if_neg hplaces] at hdir
  refine ⟨name, own, hm, hslash, hdir, h.spot, h.noSlash, h.free, hne, fun p => ?_⟩
  rw [Tree.get?_put _ (by simp), Tree.get?_erase _ (by simp), h.get?]
  split
  · rfl
  · split <;> rfl

namespace Moved

variable {m u : Tree} {bytes : List UInt8} {dir : Place} {body name : String}
  (h : Moved m path bytes u dir body name)
include h

theorem spot_erase : (m.erase (dir ++ [name])).spot path = .ok (dir, some name) :=
  h.own.spot_erase h.spot h.noDir

theorem keeps : (m.erase (dir ++ [name])).Keeps u := fun p e he hon => by
  rw [m.get?_erase (by simp)] at he
  split at he
  · cases he
  · rename_i hname
    rw [h.get?, if_neg hname, if_neg]
    · exact he
    · rintro rfl
      rw [h.free e he] at hon
      cases hon

theorem spot_after : u.spot path = .ok (dir, some name) := h.keeps.spot h.spot_erase

theorem locate : u.locate path = .ok (dir ++ [name]) :=
  Tree.locate_of_spot h.spot_after h.noSlash fun target hlink => by
    rw [h.get?, if_pos rfl] at hlink
    cases hlink

theorem readAt : u.readAt path = .ok bytes := by
  unfold Tree.readAt
  rw [h.locate]
  change u.read (dir ++ [name]) = _
  simp [Tree.read, h.get?]

theorem get?_sibling : u.get? (dir ++ [body]) = none := by
  rw [h.get?, if_neg (by simpa using h.differ), if_pos rfl]

theorem locate_sibling : u.locate (siblingOf path) = .ok (dir ++ [body]) := by
  refine Tree.locate_of_spot (spot_sibling h.spot_after h.sibling).2 h.siblingNoSlash ?_
  intro target hlink
  rw [h.get?_sibling] at hlink
  cases hlink

theorem find_sibling : u.find (siblingOf path) = .error .notFound :=
  Tree.find_eq_notFound h.locate_sibling h.get?_sibling

/-- The directories above the path are where they were. -/
theorem find_above {above : String} (habove : IsAbove path above) {p : Place}
    (hfind : m.find above = .ok (p, .dir)) : u.find above = .ok (p, .dir) := by
  obtain ⟨front, back, hnames, rfl⟩ := habove
  obtain ⟨hcheck, hreach⟩ := Tree.find_dir.mp hfind
  have hfront : ∀ n ∈ front, Path.IsWord n := fun n hn =>
    isWord_above (hnames ▸ List.mem_append_left back hn)
  rw [Path.words_ofNames hfront] at hreach
  obtain ⟨-, hname, words, hwords, hdir⟩ := Tree.spot_eq_ok.mp h.spot_erase
  -- the directories are looked at in the tree without the path, which both trees keep
  have hsame : (m.erase (dir ++ [name])).reach linkLimit [] (front ++ back) = .ok dir := by
    rw [← hdir]
    refine Tree.reach_congr _ linkLimit [] ?_
    rw [← hnames, Path.names_of_words hwords hname.not_here, List.dropLast_concat,
      List.filter_filter]
    simp
  obtain ⟨d, hd⟩ := Tree.reach_of_append hsame
  have hkeeps : (m.erase (dir ++ [name])).Keeps m := fun q e he _ => by
    rw [m.get?_erase (by simp)] at he
    split at he
    · cases he
    · exact he
  have hm := hkeeps.reach (Tree.rooted_root _) hd
  rw [hreach] at hm
  cases hm
  refine Tree.find_dir.mpr ⟨hcheck, ?_⟩
  rw [Path.words_ofNames hfront]
  exact h.keeps.reach (Tree.rooted_root _) hd

end Moved

/-- Nothing can be moved to the path: it ends in no name, in a slash or in a directory. -/
def Refuses (m : Tree) (path : String) : Prop :=
  ∀ ⦃dir name⦄, m.spot path = .ok (dir, some name) →
    Path.endsInSlash path = true ∨ m.get? (dir ++ [name]) = some .dir

/-- The sibling is moved to every path that does not refuse it. -/
theorem moveFile_of_writes {m : Tree} {bytes : List UInt8} {dir : Place} {body : String}
    (h : m.Writes (siblingOf path) bytes s dir body) :
    (∃ u, s.moveFile (siblingOf path) path = .ok u) ↔ ¬Refuses m path := by
  have hfile : s.get? (dir ++ [body]) = some (.file bytes) := by rw [h.get?, if_pos rfl]
  have hmoves (u : Tree) : s.moveFile (siblingOf path) path = .ok u ↔ _ :=
    Tree.moveFile_eq_ok (h.keeps.spot h.spot) h.noSlash hfile
  constructor
  · rintro ⟨u, hu⟩ hrefuses
    obtain ⟨dir', name, hspot, hslash, hdir, -⟩ := (hmoves u).mp hu
    obtain hends | hthere := hrefuses (h.keeps_back.spot hspot)
    · rw [hslash] at hends
      cases hends
    · exact hdir (h.keeps hthere rfl)
  · intro hfree
    unfold Refuses at hfree
    push Not at hfree
    obtain ⟨dir', name, hspot, hslash, hdir⟩ := hfree
    refine ⟨_, (hmoves _).mpr ⟨dir', name, h.keeps.spot hspot, by simpa using hslash, ?_, rfl⟩⟩
    exact fun hthere => hdir (h.keeps_back hthere rfl)

theorem refuses_of_writes {m : Tree} {bytes : List UInt8} {dir : Place} {body : String}
    {e : FileError} (h : m.Writes (siblingOf path) bytes s dir body)
    (hfails : s.moveFile (siblingOf path) path = .error e) : Refuses m path := by
  by_contra hfree
  obtain ⟨u, hu⟩ := (moveFile_of_writes h).mpr hfree
  rw [hfails] at hu
  cases hu

theorem writeJson_ok_iff (hown : OwnIfWritten (prepared t path) path) :
    (writeJson t path v).result = .ok () ↔ (prepared t path).result = .ok () ∧
      (∃ s, (prepared t path).tree.writeAt (siblingOf path) (textOf v) = .ok s) ∧
      ¬Refuses (prepared t path).tree path := by
  have hcourse := writeJson_course t path v
  generalize writeJson t path v = a at hcourse
  cases hcourse with
  | blocked e hfails => simp [hfails]
  | unwritten e hmade hfails => simp [hfails]
  | unmoved s e hmade hwrite hfails =>
    obtain ⟨dir, body, hw⟩ := Tree.writes_of_writeAt (hown hmade hwrite).beside hwrite
    simp [refuses_of_writes hw hfails]
  | moved s u hmade hwrite hmove =>
    obtain ⟨dir, body, hw⟩ := Tree.writes_of_writeAt (hown hmade hwrite).beside hwrite
    simp [hmade, hwrite, (moveFile_of_writes hw).mp ⟨u, hmove⟩]

/-- Where nothing is in the way the path gets the file, and the sibling is gone again. -/
theorem Laid.writeJson {m : Tree} {above : List String} {dir : Place} {name body : String}
    (h : Laid path above name body) (hmade : Files.prepared t path = .start m)
    (hreach : m.reach linkLimit [] above = .ok dir)
    (hfree : ∀ e, m.get? (dir ++ [body]) = some e → ∃ old, e = .file old)
    (hdir : m.get? (dir ++ [name]) ≠ some .dir) (v : Json.Value) :
    let s := m.put (dir ++ [body]) (.file (textOf v))
    writeJson t path v =
      ⟨(s.erase (dir ++ [body])).put (dir ++ [name]) (.file (textOf v)), .ok ()⟩ := by
  intro s
  have hfree' : ∀ e, m.get? (dir ++ [body]) = some e → e.leadsOn = false := fun e he => by
    obtain ⟨old, rfl⟩ := hfree e he
    rfl
  have hw : m.Writes (siblingOf path) (textOf v) s dir body :=
    ⟨h.spotSibling hreach, h.noSlashSibling, hfree', rfl⟩
  have hplaces : dir ++ [name] ≠ dir ++ [body] := by simpa using h.body_ne.symm
  have hfile : s.get? (dir ++ [body]) = some (.file (textOf v)) := by rw [hw.get?, if_pos rfl]
  refine writeJson_of_steps hmade
    (Tree.writeAt_of_spot (h.spotSibling hreach) h.noSlashSibling hfree _) ?_
  refine (Tree.moveFile_eq_ok (hw.keeps.spot hw.spot) h.noSlashSibling hfile).mpr
    ⟨dir, name, hw.keeps.spot (h.spot hreach), h.noSlash, ?_, rfl⟩
  rwa [hw.get?, if_neg hplaces]

end Vigil.Files
