import Vigil.Proofs.Files.Replacement

/-! What a replacement that fails leaves beside the path. -/
namespace Vigil.Files

variable {t s : Tree} {path : String} {v : Json.Value}

/-- The sibling has been written, and the path refuses it. -/
def Unmoved (m : Attempt) (path : String) (v : Json.Value) : Prop :=
  m.result = .ok () ∧ (∃ s, m.tree.writeAt (siblingOf path) (textOf v) = .ok s) ∧
    Refuses m.tree path

/-- A replacement that does not write the sibling changes no more than the directories, one that
cannot move it leaves it as it was written, and any other has moved it away. -/
theorem Course.sibling {m a : Attempt} (own : OwnNames m.tree path) (h : Course m path v a) :
    (¬Unmoved m path v ∧ a.result ≠ .ok () ∧ a.tree = m.tree) ∨
    (Unmoved m path v ∧ a.result ≠ .ok () ∧
      ∃ p, a.tree.find (siblingOf path) = .ok (p, .file (textOf v))) ∨
    (¬Unmoved m path v ∧ a.result = .ok () ∧
      a.tree.find (siblingOf path) = .error .notFound) := by
  cases h with
  | blocked e hfails => exact .inl ⟨by simp [Unmoved, hfails], nofun, rfl⟩
  | unwritten e hmade hfails => exact .inl ⟨by simp [Unmoved, hfails], nofun, rfl⟩
  | unmoved s e hmade hwrite hfails =>
    obtain ⟨dir, body, hw⟩ := Tree.writes_of_writeAt own.beside hwrite
    have hleft : s.find (siblingOf path) = .ok (dir ++ [body], .file (textOf v)) :=
      Tree.find_eq_ok.mpr ⟨hw.locate_after, by rw [hw.get?, if_pos rfl]⟩
    exact .inr (.inl ⟨⟨hmade, ⟨s, hwrite⟩, refuses_of_writes hw hfails⟩, nofun, _, hleft⟩)
  | moved s u hmade hwrite hmove =>
    obtain ⟨dir, body, hw⟩ := Tree.writes_of_writeAt own.beside hwrite
    obtain ⟨name, hm⟩ := moved_of_writes own hw hmove
    refine .inr (.inr ⟨fun hunmoved => ?_, rfl, hm.find_sibling⟩)
    exact (moveFile_of_writes hw).mp ⟨u, hmove⟩ hunmoved.2.2

/-- A sibling that has been written is left exactly if the path refuses it, with the whole text of
the value. Any other replacement that fails leaves at the sibling what was there before, and one
that goes well leaves nothing. -/
theorem sibling_after_replacement (t : Tree) (path : String) (v : Json.Value)
    (own : OwnNames (prepared t path).tree path) :
    let a := writeJson t path v
    (Unmoved (prepared t path) path v → a.result ≠ .ok () ∧
      ∃ p, a.tree.find (siblingOf path) = .ok (p, .file (textOf v))) ∧
    (¬Unmoved (prepared t path) path v →
      a.result ≠ .ok () ∧ Kept (siblingOf path) t a.tree ∨
        a.result = .ok () ∧ a.tree.find (siblingOf path) = .error .notFound) := by
  intro a
  obtain ⟨hnot, hfails, htree⟩ | ⟨hunmoved, hleft⟩ | ⟨hnot, hgone⟩ :=
    (writeJson_course t path v).sibling own
  · refine ⟨fun h => absurd h hnot, fun _ => .inl ⟨hfails, ?_⟩⟩
    change Kept _ t (writeJson t path v).tree
    rw [htree]
    exact .of_grown (prepared_grown t path)
  · exact ⟨fun _ => hleft, fun h => absurd hunmoved h⟩
  · exact ⟨fun h => absurd h hnot, fun _ => .inr hgone⟩

/-! ### A directory at the path -/

/-- A directory stands where settings are to be written. -/
def blocked : Tree := ⟨[(["blocked.json"], .dir)]⟩

theorem blocked_laid : Laid "/blocked.json" [] "blocked.json" "blocked.json.tmp" := by decide

theorem blocked_own : OwnNames (prepared blocked "/blocked.json").tree "/blocked.json" :=
  ownNames_of_plain (by simp [blocked]) _

theorem blocked_unmoved (v : Json.Value) :
    Unmoved (prepared blocked "/blocked.json") "/blocked.json" v := by
  have hspot := blocked_laid.spot (blocked.reach_nil linkLimit [])
  have hwrite := Tree.writeAt_of_spot (blocked_laid.spotSibling (blocked.reach_nil linkLimit []))
    blocked_laid.noSlashSibling (by rintro _ ⟨⟩) (textOf v)
  rw [blocked_laid.prepared]
  refine ⟨rfl, ⟨_, hwrite⟩, fun dir name hrefused => ?_⟩
  rw [Attempt.start, hspot] at hrefused
  cases hrefused
  exact .inr rfl

/-- Nothing was beside the directory, and afterwards the text is. -/
theorem blocked_left :
    blocked.find (siblingOf "/blocked.json") = .error .notFound ∧
      ∃ p, (writeJson blocked "/blocked.json" (.int 1)).tree.find (siblingOf "/blocked.json") =
        .ok (p, .file (textOf (.int 1))) := by
  refine ⟨?_, ?_⟩
  · have hspot := blocked_laid.spotSibling (blocked.reach_nil linkLimit [])
    exact Tree.find_eq_notFound (Tree.locate_of_spot hspot blocked_laid.noSlashSibling nofun) rfl
  · obtain ⟨hnot, -⟩ | ⟨-, -, hleft⟩ | ⟨hnot, -⟩ :=
      (writeJson_course blocked "/blocked.json" (.int 1)).sibling blocked_own
    · exact absurd (blocked_unmoved _) hnot
    · exact hleft
    · exact absurd (blocked_unmoved _) hnot

/-- What is left does not depend on the value. -/
theorem blocked_fails :
    OwnNames (prepared blocked "/blocked.json").tree "/blocked.json" ∧
      (writeJson blocked "/blocked.json" .null).result ≠ .ok () ∧
      ∃ p, (writeJson blocked "/blocked.json" .null).tree.find (siblingOf "/blocked.json") =
        .ok (p, .file (textOf .null)) :=
  ⟨blocked_own, (sibling_after_replacement blocked "/blocked.json" .null blocked_own).1
    (blocked_unmoved _)⟩

end Vigil.Files
