import Mathlib.Data.List.Infix
import Vigil.Proofs.Files.Walks

/-! The way to a place: it can be made of directories exactly if nothing else stands on it, and then
a file can stand at its end. -/
namespace Vigil.Files

theorem not_prefix_concat (dir : Place) (name : String) : ¬dir ++ [name] <+: dir := fun h => by
  have hle := h.length_le
  rw [List.length_append, List.length_singleton] at hle
  omega

namespace Tree

variable {t s : Tree} {p base : Place}

/-- Nothing but directories stands on the way to a place and at its end. -/
def Clear (t : Tree) (p : Place) : Prop :=
  ∀ q, q <+: p → t.get? q = none ∨ t.get? q = some .dir

theorem get?_empty (hp : p ≠ []) : ({} : Tree).get? p = none := by
  simp [get?, hp]

theorem clear_empty (p : Place) : ({} : Tree).Clear p := fun q _ => by
  by_cases hq : q = []
  · exact .inr (by simp [get?, hq])
  · exact .inl (get?_empty hq)

/-- What lies beyond `base` on the way through `name` is that place, or beyond it. -/
theorem beyond_cons {q rest : List String} {name : String} :
    (base.length < q.length ∧ q <+: base ++ name :: rest) ↔
      q = base ++ [name] ∨ (base ++ [name]).length < q.length ∧ q <+: base ++ [name] ++ rest := by
  have hlength : (base ++ [name]).length = base.length + 1 := by simp
  have hway : base ++ name :: rest = base ++ [name] ++ rest := by simp
  rw [hway]
  constructor
  · rintro ⟨hlt, hprefix⟩
    obtain hlt | heq := Nat.lt_or_eq_of_le (show (base ++ [name]).length ≤ q.length by omega)
    · exact .inr ⟨hlt, hprefix⟩
    · have hback := List.prefix_of_prefix_length_le hprefix (List.prefix_append _ rest) heq.ge
      exact .inl (hback.eq_of_length heq.symm)
  · rintro (rfl | ⟨hlt, hprefix⟩)
    · exact ⟨by omega, List.prefix_append _ rest⟩
    · exact ⟨by omega, hprefix⟩

theorem makeDirsBelow_cons {name : String} (rest : List String)
    (h : t.get? (base ++ [name]) = none ∨ t.get? (base ++ [name]) = some .dir) :
    ∃ u : Tree, t.makeDirsBelow base (name :: rest) = u.makeDirsBelow (base ++ [name]) rest ∧
      ∀ q, u.get? q = if q = base ++ [name] then some .dir else t.get? q := by
  obtain hnone | hdir := h
  · exact ⟨t.put (base ++ [name]) .dir, by simp [makeDirsBelow, hnone], t.get?_put (by simp) .dir⟩
  · refine ⟨t, by simp [makeDirsBelow, hdir], fun q => ?_⟩
    split
    · next hq => rw [hq, hdir]
    · rfl

theorem makeDirsBelow_of_clear {names : List String}
    (h : ∀ q, base.length < q.length ∧ q <+: base ++ names →
      t.get? q = none ∨ t.get? q = some .dir) :
    ∃ s, t.makeDirsBelow base names = .ok s ∧ ∀ q, s.get? q =
      if base.length < q.length ∧ q <+: base ++ names then some .dir else t.get? q := by
  induction names generalizing t base with
  | nil =>
    refine ⟨t, rfl, fun q => (if_neg ?_).symm⟩
    rintro ⟨hlt, hprefix⟩
    have hle := hprefix.length_le
    rw [List.append_nil] at hle
    omega
  | cons name rest ih =>
    simp only [beyond_cons] at h ⊢
    obtain ⟨u, hu, hget⟩ := makeDirsBelow_cons rest (h _ (.inl rfl))
    have hbelow : ∀ q, (base ++ [name]).length < q.length ∧ q <+: base ++ [name] ++ rest →
        u.get? q = none ∨ u.get? q = some .dir := fun q hq => by
      rw [hget]
      split
      · exact .inr rfl
      · exact h q (.inr hq)
    obtain ⟨s, hs, hget'⟩ := ih hbelow
    refine ⟨s, hu.trans hs, fun q => ?_⟩
    rw [hget', hget]
    by_cases hq : q = base ++ [name] <;> simp [hq]

/-- Directories are made where nothing stood, and nothing else changes. -/
theorem Clear.makeDirs (h : t.Clear p) :
    ∃ s, t.makeDirs p = .ok s ∧ ∀ q, s.get? q = if q <+: p then some .dir else t.get? q := by
  have hbelow : ∀ q, ([] : Place).length < q.length ∧ q <+: [] ++ p →
      t.get? q = none ∨ t.get? q = some .dir := fun q hq => h q hq.2
  obtain ⟨s, hs, hget⟩ := makeDirsBelow_of_clear hbelow
  refine ⟨s, hs, fun q => ?_⟩
  rw [hget, List.nil_append]
  cases q with
  | nil => simp
  | cons name q => simp

theorem Clear.of_makeDirs (h : t.Clear p) (hs : t.makeDirs p = .ok s) (q : Place) :
    s.get? q = if q <+: p then some .dir else t.get? q := by
  obtain ⟨s', hs', hget⟩ := h.makeDirs
  rw [hs] at hs'
  cases hs'
  exact hget q

/-! ### A file in a directory -/

variable {dir : Place} {name : String} {bytes : List UInt8}

theorem parentError?_concat (h : t.get? dir = some .dir) :
    t.parentError? (dir ++ [name]).dropLast = none := by
  rw [List.dropLast_concat, parentError?, if_pos (isDir_iff.mpr h)]

/-- A file can be written where one stands or nothing does. -/
def Writable (t : Tree) (p : Place) : Prop := ∀ e, t.get? p = some e → ∃ bytes, e = .file bytes

theorem writable_of_none (h : t.get? p = none) : t.Writable p := fun e he => by
  rw [h] at he
  cases he

/-- What a file holds, and nothing where there is none. -/
def held (t : Tree) (p : Place) : List UInt8 := (t.read p).toOption.getD []

theorem held_of_file (h : t.get? p = some (.file bytes)) : t.held p = bytes := by
  simp [held, read, h, Except.toOption]

theorem held_of_none (h : t.get? p = none) : t.held p = [] := by
  simp [held, read, h, Except.toOption]

theorem held_congr (h : s.get? p = t.get? p) : s.held p = t.held p := by
  rw [held, held, read, read, h]

theorem write_concat (hdir : t.get? dir = some .dir) (h : t.Writable (dir ++ [name]))
    (bytes : List UInt8) :
    t.write (dir ++ [name]) bytes = .ok (t.put (dir ++ [name]) (.file bytes)) := by
  rw [write, parentError?_concat hdir]
  cases he : t.get? (dir ++ [name]) with
  | none => rfl
  | some e =>
    obtain ⟨old, rfl⟩ := h e he
    rfl

theorem append_concat (hdir : t.get? dir = some .dir) (h : t.Writable (dir ++ [name]))
    (bytes : List UInt8) :
    t.append (dir ++ [name]) bytes =
      .ok (t.put (dir ++ [name]) (.file (t.held (dir ++ [name]) ++ bytes))) := by
  have hwrite := write_concat hdir h
  rw [append]
  cases he : t.get? (dir ++ [name]) with
  | none => simp [held_of_none he, hwrite]
  | some e =>
    obtain ⟨old, rfl⟩ := h e he
    simp [held_of_file he, hwrite]

/-- What cannot be removed is not there. -/
theorem removed_get? (hp : p ≠ []) (h : t.Writable p) (q : Place) :
    ((t.removeFile p).toOption.getD t).get? q = if q = p then none else t.get? q := by
  cases he : t.get? p with
  | none =>
    have hkept : (t.removeFile p).toOption.getD t = t := by
      simp [removeFile, he, Except.toOption]
    rw [hkept]
    split
    · next hq => rw [hq, he]
    · rfl
  | some e =>
    obtain ⟨bytes, rfl⟩ := h e he
    have herased : (t.removeFile p).toOption.getD t = t.erase p := by
      simp [removeFile, he, Except.toOption]
    rw [herased, t.get?_erase hp]

theorem rename_concat (hdir : t.get? dir = some .dir) (hfile : t.get? p = some (.file bytes))
    (h : t.get? (dir ++ [name]) ≠ some .dir) :
    t.rename p (dir ++ [name]) = .ok ((t.erase p).put (dir ++ [name]) (.file bytes)) := by
  have htarget : t.isDir (dir ++ [name]) = false := by
    rw [← Bool.not_eq_true, isDir_iff]
    exact h
  rw [rename, hfile, htarget, parentError?_concat hdir]
  rfl

end Tree

end Vigil.Files
