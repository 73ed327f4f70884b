import Vigil.Proofs.Files.Replacement

/-! A JSON file is replaced as a whole: what is seen at its path is what was there before, until it
is the new file. A link or a device in the place of one of the names it uses leads elsewhere. -/
namespace Vigil.Files

variable {t s : Tree} {path : String} {v : Json.Value}

/-- The trees that stand while a file is replaced: the directories are made one after the other, the
sibling grows to its whole text, and it is moved. -/
inductive Seen (t : Tree) (path : String) (v : Json.Value) : Tree → Prop
  | making (front back : List String) (h : (Path.names path).dropLast = front ++ back) :
    Seen t path v (t.ensureDirs front.reverse).tree
  | writing (n : Nat) (s : Tree) (hmade : (prepared t path).result = .ok ())
    (hwrite : (prepared t path).tree.writeAt (siblingOf path) ((textOf v).take n) = .ok s) :
    Seen t path v s
  | done : Seen t path v (writeJson t path v).tree

/-- The places that a replacement may change: those of new directories above the path, that of the
sibling, and if it succeeds that of the path. -/
def MayChange (t : Tree) (path : String) (a : Attempt) (p : Place) : Prop :=
  (t.get? p = none ∧ ∃ dir, IsAbove path dir ∧ a.tree.find dir = .ok (p, .dir)) ∨
    a.tree.locate (siblingOf path) = .ok p ∨
    a.result = .ok () ∧ a.tree.locate path = .ok p

namespace Course

variable {a : Attempt}

theorem kept (hown : OwnIfWritten (prepared t path) path) (h : Course (prepared t path) path v a) :
    Kept path t a.tree ∨ a.result = .ok () := by
  have hgrown := prepared_grown t path
  cases h with
  | blocked e hfails => exact .inl (.of_grown hgrown)
  | unwritten e hmade hfails => exact .inl (.of_grown hgrown)
  | unmoved s e hmade hwrite hfails =>
    have own := hown hmade hwrite
    obtain ⟨dir, body, hw⟩ := Tree.writes_of_writeAt own.beside hwrite
    exact .inl (.of_writes hgrown own hw)
  | moved s u hmade hwrite hmove => exact .inr rfl

theorem mayChange (hown : OwnIfWritten (prepared t path) path)
    (h : Course (prepared t path) path v a) {p : Place} (hne : a.tree.get? p ≠ t.get? p) :
    MayChange t path a p := by
  have hgrown := prepared_grown t path
  cases h with
  | blocked e hfails => exact .inl (hgrown.added_of_ne hne)
  | unwritten e hmade hfails => exact .inl (hgrown.added_of_ne hne)
  | unmoved s e hmade hwrite hfails =>
    have own := hown hmade hwrite
    obtain ⟨dir, body, hw⟩ := Tree.writes_of_writeAt own.beside hwrite
    by_cases hp : p = dir ++ [body]
    · exact .inr (.inl (hp ▸ hw.locate_after))
    · change s.get? p ≠ t.get? p at hne
      rw [hw.get?, if_neg hp] at hne
      obtain ⟨hnone, above, habove, hfind⟩ := hgrown.added_of_ne hne
      exact .inl ⟨hnone, above, habove, hw.find hfind hp⟩
  | moved s u hmade hwrite hmove =>
    have own := hown hmade hwrite
    obtain ⟨dir, body, hw⟩ := Tree.writes_of_writeAt own.beside hwrite
    obtain ⟨name, hm⟩ := moved_of_writes own hw hmove
    by_cases hname : p = dir ++ [name]
    · exact .inr (.inr ⟨rfl, hname ▸ hm.locate⟩)
    · by_cases hbody : p = dir ++ [body]
      · exact .inr (.inl (hbody ▸ hm.locate_sibling))
      · change u.get? p ≠ t.get? p at hne
        rw [hm.get?, if_neg hname, if_neg hbody] at hne
        obtain ⟨hnone, above, habove, hfind⟩ := hgrown.added_of_ne hne
        exact .inl ⟨hnone, above, habove, hm.find_above habove hfind⟩

theorem done (hown : OwnIfWritten (prepared t path) path) (h : Course (prepared t path) path v a)
    (hok : a.result = .ok ()) : a.tree.readAt path = .ok (textOf v) ∧
      (∀ dir, IsAbove path dir → a.tree.isDirectory dir = true) ∧
      a.tree.find (siblingOf path) = .error .notFound := by
  cases h with
  | blocked e hfails => cases hok
  | unwritten e hmade hfails => cases hok
  | unmoved s e hmade hwrite hfails => cases hok
  | moved s u hmade hwrite hmove =>
    have own := hown hmade hwrite
    obtain ⟨dir, body, hw⟩ := Tree.writes_of_writeAt own.beside hwrite
    obtain ⟨name, hm⟩ := moved_of_writes own hw hmove
    refine ⟨hm.readAt, fun above habove => ?_, hm.find_sibling⟩
    obtain ⟨p, hp⟩ := Tree.isDirectory_iff.mp (prepared_isDirectory hmade habove)
    exact Tree.isDirectory_iff.mpr ⟨p, hm.find_above habove hp⟩

end Course

theorem Seen.kept (hown : OwnIfWritten (prepared t path) path) (h : Seen t path v s) :
    Kept path t s ∨ (writeJson t path v).result = .ok () ∧ s = (writeJson t path v).tree := by
  cases h with
  | making front back h => exact .inl (.of_grown (t.ensureDirs_grown front))
  | writing n s hmade hwrite =>
    have own := hown hmade hwrite
    obtain ⟨dir, body, hw⟩ := Tree.writes_of_writeAt own.beside hwrite
    exact .inl (.of_writes (prepared_grown t path) own hw)
  | done => exact ((writeJson_course t path v).kept hown).imp_right fun hok => ⟨hok, rfl⟩

/-- A file is replaced as a whole or not at all, in every tree of files and directories
(`ownNames_of_plain`), and with links and devices as far as the names are the path's own or the
sibling cannot be written. That goes well exactly if the directories can be made, the sibling can be
written and the path does not refuse it. Then the path holds the value's text, the directories above
it are there, and the sibling is not. If it fails the path leads to what it led to before. Nothing
changes but new directories above the path, the sibling and, if it goes well, the path. What is seen
at the path meanwhile is never a part of the text. -/
theorem writeJson_all_or_nothing (t : Tree) (path : String) (v : Json.Value)
    (hown : OwnIfWritten (prepared t path) path) :
    let m := prepared t path
    let a := writeJson t path v
    (a.result = .ok () ↔ m.result = .ok () ∧
      (∃ s, m.tree.writeAt (siblingOf path) (textOf v) = .ok s) ∧ ¬Refuses m.tree path) ∧
    (a.result = .ok () → a.tree.readAt path = .ok (textOf v) ∧
      (∀ dir, IsAbove path dir → a.tree.isDirectory dir = true) ∧
      a.tree.find (siblingOf path) = .error .notFound) ∧
    (∀ e, a.result = .error e → Kept path t a.tree) ∧
    (∀ p, a.tree.get? p ≠ t.get? p → MayChange t path a p) ∧
    ∀ s, Seen t path v s → Kept path t s ∨ a.result = .ok () ∧ s = a.tree := by
  have hcourse := writeJson_course t path v
  refine ⟨writeJson_ok_iff hown, hcourse.done hown, fun e he => ?_,
    fun p => hcourse.mayChange hown, fun s => Seen.kept hown⟩
  refine (hcourse.kept hown).resolve_right fun hok => ?_
  rw [he] at hok
  cases hok

/-! ### Settings below the root -/

theorem settings_laid : Laid "/s.json" [] "s.json" "s.json.tmp" := by decide

theorem settings_written (hfree : ∀ e, t.get? ["s.json.tmp"] = some e → ∃ old, e = .file old)
    (hdir : t.get? ["s.json"] ≠ some .dir) (v : Json.Value) :
    (writeJson t "/s.json" v).result = .ok () := by
  rw [settings_laid.writeJson (settings_laid.prepared t) (t.reach_nil _ _) hfree hdir]

/-- Settings below the root are replaced. -/
theorem settings_replaced :
    let t : Tree := ⟨[(["s.json"], .file [1])]⟩
    let a := writeJson t "/s.json" .null
    OwnNames (prepared t "/s.json").tree "/s.json" ∧ a.result = .ok () ∧
      a.tree.readAt "/s.json" = .ok (textOf .null) ∧
      a.tree.find (siblingOf "/s.json") = .error .notFound := by
  intro t a
  have own := ownNames_of_plain (t := t) (by simp [t]) "/s.json"
  have hok : a.result = .ok () := settings_written (by rintro _ ⟨⟩) (by rintro ⟨⟩) .null
  obtain ⟨-, hdone, -⟩ := writeJson_all_or_nothing t "/s.json" .null own.ifWritten
  obtain ⟨hread, -, hgone⟩ := hdone hok
  exact ⟨own, hok, hread, hgone⟩

/-! ### What leads elsewhere -/

/-- A link below the root to another name there. -/
theorem Tree.locate_of_link {link name target : String} (hcheck : Tree.checkPath path = .ok ())
    (hsteps : Path.steps path = [link]) (hlink : Tree.IsName link)
    (hto : t.get? [link] = some (.link target)) (htarget : Path.steps target = [name])
    (hname : Tree.IsName name) (hend : ∀ far, t.get? [name] ≠ some (.link far)) :
    t.locate path = .ok [name] := by
  refine Tree.locate_eq_ok.mpr ⟨hcheck, ?_⟩
  have hto : t.get? ([] ++ [link]) = some (.link target) := hto
  rw [hsteps, linkLimit, Tree.walk_follow 39 [] hlink hto, htarget, List.append_nil, ite_self]
  exact Tree.walk_last 39 hname hend

/-- Beside the path stands a link to another file. -/
def linked : Tree := ⟨[(["other"], .file [1]), (["s.json.tmp"], .link "/other")]⟩

/-- The other file is written, and the path gets the link. -/
theorem linked_written_through (v : Json.Value) :
    let a := writeJson linked "/s.json" v
    a.result = .ok () ∧ a.tree.get? ["other"] = some (.file (textOf v)) ∧
      a.tree.get? ["s.json"] = some (.link "/other") := by
  have hlocate : linked.locate (siblingOf "/s.json") = .ok ["other"] :=
    Tree.locate_of_link settings_laid.checkSibling settings_laid.stepsSibling settings_laid.isBody
      rfl (by decide) (by decide) (by rintro far ⟨⟩)
  have hwrite := Tree.writeAt_of_locate hlocate (textOf v)
  rw [writeJson_of_steps (settings_laid.prepared linked) (hwrite.trans rfl)
    ((settings_laid.moveFile (Tree.reach_nil _ _ _)).trans rfl)]
  exact ⟨rfl, rfl, rfl⟩

/-- Beside the path stands a device. -/
def muted : Tree := ⟨[(["s.json.tmp"], .device)]⟩

/-- The path gets the device, and nothing is written. -/
theorem muted_holds_nothing (v : Json.Value) :
    let a := writeJson muted "/s.json" v
    a.result = .ok () ∧ a.tree.get? ["s.json"] = some .device := by
  have hlocate : muted.locate (siblingOf "/s.json") = .ok ["s.json.tmp"] :=
    Tree.locate_of_spot (settings_laid.spotSibling (muted.reach_nil _ _))
      settings_laid.noSlashSibling (by rintro target ⟨⟩)
  have hwrite := Tree.writeAt_of_locate hlocate (textOf v)
  rw [writeJson_of_steps (settings_laid.prepared muted) (hwrite.trans rfl)
    ((settings_laid.moveFile (Tree.reach_nil _ _ _)).trans rfl)]
  exact ⟨rfl, rfl⟩

/-- The path is a link to its sibling. -/
def looped : Tree := ⟨[(["s.json"], .link "s.json.tmp")]⟩

/-- The path shows the sibling while it grows. -/
theorem looped_shows_part (v : Json.Value) (n : Nat) :
    ∃ s, Seen looped "/s.json" v s ∧ s.readAt "/s.json" = .ok ((textOf v).take n) := by
  have hmade := settings_laid.prepared looped
  have hwrite := Tree.writeAt_of_spot (settings_laid.spotSibling (looped.reach_nil _ _))
    settings_laid.noSlashSibling (by rintro _ ⟨⟩) ((textOf v).take n)
  let s := looped.put ["s.json.tmp"] (.file ((textOf v).take n))
  have hseen : Seen looped "/s.json" v s :=
    .writing n s (by rw [hmade]; rfl) (by rw [hmade]; exact hwrite)
  have hlocate : s.locate "/s.json" = .ok ["s.json.tmp"] :=
    Tree.locate_of_link settings_laid.check settings_laid.steps settings_laid.isName rfl
      (by decide) settings_laid.isBody (by rintro far ⟨⟩)
  refine ⟨s, hseen, ?_⟩
  rw [Tree.readAt, hlocate]
  rfl

/-- The way to `/s/s` goes through what stands there. -/
def ringed : Tree := ⟨[(["s"], .link "/")]⟩

theorem ringed_laid : Laid "/s/s" ["s"] "s" "s.json.tmp" := by decide

theorem ringed_reach : ringed.reach linkLimit [] ["s"] = .ok [] := by
  have hroot : Path.steps "/" = ["."] := by decide
  have hlink : ringed.get? ([] ++ ["s"]) = some (.link "/") := rfl
  rw [Tree.reach, List.singleton_append, linkLimit,
    Tree.walk_follow 39 _ ringed_laid.isName hlink, hroot]
  simp

theorem ringed_prepared : prepared ringed "/s/s" = .start ringed := by
  have hwords : Path.words "/s" = ["s"] := by decide
  have hnames : Path.names "/s/s" = ["s", "s"] := by decide
  have hpath : Path.ofNames ["s"] = "/s" := by decide
  have hmake : ringed.makeDir "/s" = .error .alreadyExists := by
    rw [Tree.makeDir, ringed.spot_of_name rfl ringed_laid.isName hwords]
    rfl
  have hdir : ringed.isDirectory "/s" = true :=
    Tree.isDirectory_iff.mpr ⟨[], Tree.find_dir.mpr ⟨rfl, hwords ▸ ringed_reach⟩⟩
  simp [prepared, hnames, Tree.ensureDirs, hpath, hmake, Tree.ensureDir, hdir, Attempt.start]

/-- With the link the way to the path is gone. -/
theorem ringed_cut_off (v : Json.Value) :
    let a := writeJson ringed "/s/s" v
    a.result = .ok () ∧ a.tree.readAt "/s/s" = .error .notADirectory := by
  have hlost (u : Tree) (hu : u.get? ["s"] = some (.file (textOf v))) :
      u.readAt "/s/s" = .error .notADirectory := by
    have hlocate : u.locate "/s/s" = .error .notADirectory := by
      rw [Tree.locate, ringed_laid.steps]
      exact Tree.walk_stop linkLimit ["s"] ringed_laid.isName hu rfl
    rw [Tree.readAt, hlocate]
    rfl
  rw [ringed_laid.writeJson ringed_prepared ringed_reach (by rintro _ ⟨⟩) (by rintro ⟨⟩)]
  exact ⟨rfl, hlost _ rfl⟩

/-- A directory below the root, which the way to `/a/../b.json` enters and leaves. -/
def entered : Tree := ⟨[(["a"], .dir)]⟩

theorem entered_laid : Laid "/a/../b.json" ["a", ".."] "b.json" "b.json.tmp" := by decide

theorem entered_name : Tree.IsName "a" := by decide

theorem entered_reach : entered.reach linkLimit [] ["a"] = .ok ["a"] := by
  rw [Tree.reach, List.singleton_append, Tree.walk_enter linkLimit _ entered_name rfl]
  simp

theorem entered_reach_out : entered.reach linkLimit [] ["a", ".."] = .ok [] := by
  rw [Tree.reach, List.cons_append, Tree.walk_enter linkLimit _ entered_name rfl]
  simp

/-- The directory is made for the way. -/
theorem entered_prepared : prepared {} "/a/../b.json" = .start entered := by
  have hwords : Path.words "/a/.." = ["a"] ++ [".."] := by decide
  have hnames : Path.names "/a/../b.json" = ["a", "..", "b.json"] := by decide
  have hlast : Path.ofNames ["a", ".."] = "/a/.." := by decide
  have hfirst : Path.ofNames ["a"] = "/a" := by decide
  have hmissing : ({} : Tree).makeDir "/a/.." = .error .notFound := by
    rw [Tree.makeDir, Tree.spot_of_words rfl hwords, Tree.reach, List.singleton_append,
      Tree.walk_missing linkLimit _ entered_name rfl]
    rfl
  have hmake : ({} : Tree).makeDir "/a" = .ok entered := by
    rw [Tree.makeDir, Tree.spot_of_name {} rfl entered_name (by decide)]
    rfl
  have hthere : entered.makeDir "/a/.." = .error .alreadyExists := by
    rw [Tree.makeDir, Tree.spot_of_words rfl hwords, entered_reach]
    rfl
  have hdir : entered.isDirectory "/a/.." = true :=
    Tree.isDirectory_iff.mpr ⟨[], Tree.find_dir.mpr ⟨rfl, hwords ▸ entered_reach_out⟩⟩
  simp [prepared, hnames, Tree.ensureDirs, hlast, hfirst, hmissing, hmake, Tree.ensureDir,
    hthere, hdir, Attempt.start]

/-- The directory stays, and the file is not in it. -/
theorem entered_stays (v : Json.Value) :
    let a := writeJson {} "/a/../b.json" v
    a.result = .ok () ∧ a.tree.get? ["a"] = some .dir ∧
      a.tree.get? ["b.json"] = some (.file (textOf v)) := by
  rw [entered_laid.writeJson entered_prepared entered_reach_out (by rintro _ ⟨⟩) (by rintro ⟨⟩)]
  exact ⟨rfl, rfl, rfl⟩

/-- A replacement that goes well can write another file and leave the path a link, a device or
without a way to it, and can leave a directory that the file is not in. What is seen at the path
meanwhile can be a part of the text. -/
theorem replaced_elsewhere :
    ((writeJson linked "/s.json" .null).result = .ok () ∧
      linked.get? ["other"] = some (.file [1]) ∧
      (writeJson linked "/s.json" .null).tree.get? ["other"] = some (.file (textOf .null)) ∧
      (writeJson linked "/s.json" .null).tree.get? ["s.json"] = some (.link "/other")) ∧
    ((writeJson muted "/s.json" .null).result = .ok () ∧
      (writeJson muted "/s.json" .null).tree.get? ["s.json"] = some .device) ∧
    (∃ s, Seen looped "/s.json" .null s ∧ s.readAt "/s.json" = .ok ((textOf .null).take 1)) ∧
    ((writeJson ringed "/s/s" .null).result = .ok () ∧
      (writeJson ringed "/s/s" .null).tree.readAt "/s/s" = .error .notADirectory) ∧
    (writeJson {} "/a/../b.json" .null).result = .ok () ∧
      (writeJson {} "/a/../b.json" .null).tree.get? ["a"] = some .dir ∧
      (writeJson {} "/a/../b.json" .null).tree.get? ["b.json"] = some (.file (textOf .null)) := by
  obtain ⟨hok, hother, hlink⟩ := linked_written_through .null
  exact ⟨⟨hok, rfl, hother, hlink⟩, muted_holds_nothing .null, looped_shows_part .null 1,
    ringed_cut_off .null, entered_stays .null⟩

end Vigil.Files
