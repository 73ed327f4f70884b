import Mathlib.Data.List.Basic
import Mathlib.Tactic.MkIffOfInductiveProp
import Vigil.Files.Resolve

/-! Where a path leads depends on the directories and links of a tree alone. -/
namespace Vigil.Files

/-- A path can lead on through it. -/
def Entry.leadsOn : Entry → Bool
  | .dir | .link _ => true
  | .file _ | .device => false

namespace Tree

variable {t s : Tree} {p q here : Place} {e : Entry}

/-! ### Entries -/

@[simp] theorem get?_root (t : Tree) : t.get? [] = some .dir := rfl

theorem mem_of_get? (h : t.get? p = some e) : p = [] ∧ e = .dir ∨ (p, e) ∈ t.entries := by
  unfold get? at h
  split at h
  · rename_i hp
    exact .inl ⟨hp, (Option.some.inj h).symm⟩
  · obtain ⟨front, back, hentries, -⟩ := List.lookup_eq_some_iff.mp h
    exact .inr (by simp [hentries])

theorem lookup_filter_ne (l : List (Place × Entry)) (p q : Place) :
    (l.filter fun x => x.1 != p).lookup q = if q = p then none else l.lookup q := by
  induction l with
  | nil => simp
  | cons x l ih =>
    obtain ⟨r, e⟩ := x
    by_cases hr : r = p
    · rw [List.filter_cons_of_neg (by simp [hr]), ih]
      split
      · rfl
      · rename_i hq
        have hne : (q == r) = false := by simp [hr, hq]
        simp [List.lookup_cons, hne]
    · rw [List.filter_cons_of_pos (by simp [hr]), List.lookup_cons, List.lookup_cons, ih]
      by_cases hq : q = r
      · simp [hq, hr]
      · have hne : (q == r) = false := by simp [hq]
        simp [hne]

theorem get?_put (t : Tree) (hp : p ≠ []) (e : Entry) (q : Place) :
    (t.put p e).get? q = if q = p then some e else t.get? q := by
  by_cases hq : q = p
  · subst hq
    simp [get?, put, hp]
  · have hne : (q == p) = false := by simp [hq]
    simp [get?, put, List.lookup_cons, hne, lookup_filter_ne, hq]

theorem get?_erase (t : Tree) (hp : p ≠ []) (q : Place) :
    (t.erase p).get? q = if q = p then none else t.get? q := by
  by_cases hq : q = p
  · subst hq
    simp [get?, erase, hp, lookup_filter_ne]
  · simp [get?, erase, lookup_filter_ne, hq]

theorem isDir_iff : t.isDir p = true ↔ t.get? p = some .dir := by
  simp [isDir]

/-! ### One word after another -/

/-- A word that names something in the directory it is read in. -/
@[mk_iff]
structure IsName (word : String) : Prop where
  not_here : word ≠ "."
  not_above : word ≠ ".."
  fits : word.utf8ByteSize ≤ nameLimit

instance (word : String) : Decidable (IsName word) := decidable_of_iff _ (isName_iff word).symm

variable {left : Nat} {word : String} {rest : List String}

@[simp] theorem walk_nil (t : Tree) (left : Nat) (here : Place) :
    t.walk left here [] = .ok here := by
  rw [walk]

@[simp] theorem walk_stay (t : Tree) (left : Nat) (here : Place) (rest : List String) :
    t.walk left here ("." :: rest) = t.walk left here rest := by
  rw [walk]
  simp

@[simp] theorem walk_up (t : Tree) (left : Nat) (here : Place) (rest : List String) :
    t.walk left here (".." :: rest) = t.walk left here.dropLast rest := by
  rw [walk]
  simp

theorem walk_long (t : Tree) (left : Nat) (here : Place) (rest : List String)
    (h : nameLimit < word.utf8ByteSize) :
    t.walk left here (word :: rest) = .error .nameTooLong := by
  have hstay : word ≠ "." := by rintro rfl; exact absurd h (by decide)
  have hup : word ≠ ".." := by rintro rfl; exact absurd h (by decide)
  rw [walk]
  simp [hstay, hup, h]

theorem walk_missing (left : Nat) (rest : List String) (hword : IsName word)
    (h : t.get? (here ++ [word]) = none) : t.walk left here (word :: rest) =
      if rest.isEmpty then .ok (here ++ [word]) else .error .notFound := by
  have hfits := Nat.not_lt.mpr hword.fits
  rw [walk]
  simp [hword.not_here, hword.not_above, hfits, h]

theorem walk_enter (left : Nat) (rest : List String) (hword : IsName word)
    (h : t.get? (here ++ [word]) = some .dir) :
    t.walk left here (word :: rest) = t.walk left (here ++ [word]) rest := by
  have hfits := Nat.not_lt.mpr hword.fits
  rw [walk]
  simp [hword.not_here, hword.not_above, hfits, h]

theorem walk_spent (rest : List String) (hword : IsName word) {target : String}
    (h : t.get? (here ++ [word]) = some (.link target)) :
    t.walk 0 here (word :: rest) = .error .tooManyLinks := by
  have hfits := Nat.not_lt.mpr hword.fits
  rw [walk]
  simp [hword.not_here, hword.not_above, hfits, h]

theorem walk_follow (left : Nat) (rest : List String) (hword : IsName word) {target : String}
    (h : t.get? (here ++ [word]) = some (.link target)) :
    t.walk (left + 1) here (word :: rest) =
      t.walk left (if Path.isAbsolute target then [] else here) (Path.steps target ++ rest) := by
  have hfits := Nat.not_lt.mpr hword.fits
  rw [walk]
  simp [hword.not_here, hword.not_above, hfits, h]

theorem walk_stop (left : Nat) (rest : List String) (hword : IsName word)
    (h : t.get? (here ++ [word]) = some e) (he : e.leadsOn = false) :
    t.walk left here (word :: rest) =
      if rest.isEmpty then .ok (here ++ [word]) else .error .notADirectory := by
  have hfits := Nat.not_lt.mpr hword.fits
  rw [walk]
  cases e with
  | dir | link target => cases he
  | file bytes | device => simp [hword.not_here, hword.not_above, hfits, h]

/-- The last word may name what is not there yet. -/
theorem walk_last (left : Nat) (hword : IsName word)
    (h : ∀ target, t.get? (here ++ [word]) ≠ some (.link target)) :
    t.walk left here [word] = .ok (here ++ [word]) := by
  cases he : t.get? (here ++ [word]) with
  | none => rw [walk_missing left _ hword he]; rfl
  | some e =>
    cases e with
    | dir => rw [walk_enter left _ hword he, walk_nil]
    | link target => exact absurd he (h target)
    | file bytes | device => rw [walk_stop left _ hword he rfl]; rfl

/-- A walk goes word by word, and through a link with the words of its target. -/
@[elab_as_elim] theorem walk_induction (t : Tree) {motive : Nat → Place → List String → Prop}
    (nil : ∀ left here, motive left here [])
    (stay : ∀ left here rest, motive left here rest → motive left here ("." :: rest))
    (up : ∀ left here rest, motive left here.dropLast rest → motive left here (".." :: rest))
    (long : ∀ left here word rest, nameLimit < word.utf8ByteSize → motive left here (word :: rest))
    (missing : ∀ left here word rest, IsName word → t.get? (here ++ [word]) = none →
      motive left here (word :: rest))
    (enter : ∀ left here word rest, IsName word → t.get? (here ++ [word]) = some .dir →
      motive left (here ++ [word]) rest → motive left here (word :: rest))
    (spent : ∀ here word rest target, IsName word →
      t.get? (here ++ [word]) = some (.link target) → motive 0 here (word :: rest))
    (follow : ∀ left here word rest target, IsName word →
      t.get? (here ++ [word]) = some (.link target) →
      motive left (if Path.isAbsolute target then [] else here) (Path.steps target ++ rest) →
      motive (left + 1) here (word :: rest))
    (stop : ∀ left here word rest e, IsName word → t.get? (here ++ [word]) = some e →
      e.leadsOn = false → motive left here (word :: rest))
    (left : Nat) (here : Place) (words : List String) : motive left here words := by
  have isName (word : String) (hstay : ¬(word == ".") = true) (hup : ¬(word == "..") = true)
      (hfits : ¬nameLimit < word.utf8ByteSize) : IsName word :=
    ⟨by simpa using hstay, by simpa using hup, Nat.not_lt.mp hfits⟩
  have notOn (e : Entry) (left : Nat) (hdir : e = .dir → False)
      (hspent : ∀ target, left = 0 → e = .link target → False)
      (hfollow : ∀ target k, left = k + 1 → e = .link target → False) : e.leadsOn = false := by
    cases e with
    | dir => exact (hdir rfl).elim
    | link target =>
      cases left with
      | zero => exact (hspent target rfl rfl).elim
      | succ k => exact (hfollow target k rfl rfl).elim
    | file bytes | device => rfl
  induction left, here, words using walk.induct t with
  | case1 left here => exact nil left here
  | case2 left here word rest h ih => exact eq_of_beq h ▸ stay left here rest ih
  | case3 left here word rest _ h ih => exact eq_of_beq h ▸ up left here rest ih
  | case4 left here word rest _ _ h => exact long left here word rest h
  | case5 left here word rest h₁ h₂ h₃ _ h => exact missing _ _ _ _ (isName _ h₁ h₂ h₃) h
  | case6 left here word rest h₁ h₂ h₃ _ h => exact missing _ _ _ _ (isName _ h₁ h₂ h₃) h
  | case7 here word rest h₁ h₂ h₃ _ left h ih => exact enter _ _ _ _ (isName _ h₁ h₂ h₃) h ih
  | case8 here word rest h₁ h₂ h₃ _ target h => exact spent _ _ _ _ (isName _ h₁ h₂ h₃) h
  | case9 here word rest h₁ h₂ h₃ _ target left h ih =>
    exact follow _ _ _ _ _ (isName _ h₁ h₂ h₃) h ih
  | case10 left here word rest h₁ h₂ h₃ _ e hdir h _ hspent hfollow =>
    exact stop _ _ _ _ e (isName _ h₁ h₂ h₃) h (notOn e left hdir hspent hfollow)
  | case11 left here word rest h₁ h₂ h₃ _ e hdir h _ hspent hfollow =>
    exact stop _ _ _ _ e (isName _ h₁ h₂ h₃) h (notOn e left hdir hspent hfollow)

/-! ### Directories on the way -/

/-- The place is a directory, and so is every place on the way to it. -/
def Rooted (t : Tree) (p : Place) : Prop := ∀ n, t.get? (p.take n) = some .dir

theorem rooted_root (t : Tree) : t.Rooted [] := fun n => by simp

theorem Rooted.get? (h : t.Rooted p) : t.get? p = some .dir := by
  simpa using h p.length

theorem Rooted.dropLast (h : t.Rooted p) : t.Rooted p.dropLast := fun n => by
  rw [List.dropLast_eq_take, List.take_take]
  exact h _

theorem Rooted.concat (h : t.Rooted p) {name : String} (hname : t.get? (p ++ [name]) = some .dir) :
    t.Rooted (p ++ [name]) := fun n => by
  by_cases hn : n ≤ p.length
  · rw [List.take_append_of_le_length hn]
    exact h n
  · rwa [List.take_of_length_le (by simp; omega)]

/-- The directory that words lead to. -/
def reach (t : Tree) (left : Nat) (here : Place) (words : List String) : Except FileError Place :=
  t.walk left here (words ++ ["."])

theorem reach_rooted {words : List String} (hhere : t.Rooted here)
    (h : t.reach left here words = .ok p) : t.Rooted p := by
  unfold reach at h
  induction left, here, words using walk_induction t with
  | nil left here =>
    rw [List.nil_append, walk_stay, walk_nil] at h
    cases h
    exact hhere
  | stay left here rest ih => exact ih hhere (by simpa using h)
  | up left here rest ih => exact ih hhere.dropLast (by simpa using h)
  | long left here word rest hlong => simp [walk_long t left here _ hlong] at h
  | missing left here word rest hword hnone =>
    simp [walk_missing left _ hword hnone] at h
  | enter left here word rest hword hdir ih =>
    exact ih (hhere.concat hdir) (by simpa [walk_enter left _ hword hdir] using h)
  | spent here word rest target hword hlink =>
    simp [walk_spent _ hword hlink] at h
  | follow left here word rest target hword hlink ih =>
    refine ih ?_ (by simpa [walk_follow left _ hword hlink] using h)
    split
    · exact t.rooted_root
    · exact hhere
  | stop left here word rest e hword hstop he =>
    simp [walk_stop left _ hword hstop he] at h

/-- What follows some words is walked from the directory that they lead to. How many links are left
then depends on those words alone. -/
theorem walk_append (t : Tree) (left : Nat) (here : Place) (words : List String) :
    ∃ left', ∀ rest, rest ≠ [] → t.walk left here (words ++ rest) =
      t.reach left here words >>= fun dir => t.walk left' dir rest := by
  unfold reach
  induction left, here, words using walk_induction t with
  | nil left here => exact ⟨left, fun rest _ => by simp; rfl⟩
  | stay left here rest ih => simpa using ih
  | up left here rest ih => simpa using ih
  | long left here word rest hlong =>
    exact ⟨left, fun more _ => by simp [walk_long t left here _ hlong]; rfl⟩
  | missing left here word rest hword hnone =>
    exact ⟨left, fun more hmore => by simp [walk_missing left _ hword hnone, hmore]; rfl⟩
  | enter left here word rest hword hdir ih => simpa [walk_enter left _ hword hdir] using ih
  | spent here word rest target hword hlink =>
    exact ⟨0, fun more _ => by simp [walk_spent _ hword hlink]; rfl⟩
  | follow left here word rest target hword hlink ih =>
    simpa [walk_follow left _ hword hlink] using ih
  | stop left here word rest e hword hstop he =>
    exact ⟨left, fun more hmore => by simp [walk_stop left _ hword hstop he, hmore]; rfl⟩

/-- Whoever gets to the end of the words has been where the first of them lead. -/
theorem reach_of_append {words more : List String}
    (h : t.reach left here (words ++ more) = .ok p) : ∃ dir, t.reach left here words = .ok dir := by
  obtain ⟨left', happend⟩ := t.walk_append left here words
  rw [reach, List.append_assoc, happend _ (by simp)] at h
  cases hreach : t.reach left here words with
  | ok dir => exact ⟨dir, rfl⟩
  | error e => rw [hreach] at h; cases h

/-- A last word that is no link names what it leads to. -/
theorem walk_concat {words : List String} (hword : IsName word)
    (hlink : ∀ dir, t.reach left here words = .ok dir →
      ∀ target, t.get? (dir ++ [word]) ≠ some (.link target)) :
    t.walk left here (words ++ [word]) =
      t.reach left here words >>= fun dir => .ok (dir ++ [word]) := by
  obtain ⟨left', happend⟩ := t.walk_append left here words
  rw [happend _ (by simp)]
  cases hreach : t.reach left here words with
  | error e => rfl
  | ok dir =>
    exact walk_last left' hword (hlink dir hreach)

/-- Words of which the last is no name lead to a directory. -/
theorem walk_rooted {words : List String} (hhere : t.Rooted here)
    (hlast : ∀ before last, words = before ++ [last] → last = "." ∨ last = "..")
    (h : t.walk left here words = .ok p) : t.Rooted p := by
  obtain rfl | ⟨before, last, rfl⟩ := words.eq_nil_or_concat
  · rw [walk_nil] at h
    cases h
    exact hhere
  · rw [List.concat_eq_append] at h hlast
    obtain rfl | rfl := hlast before last rfl
    · exact reach_rooted hhere h
    · obtain ⟨left', happend⟩ := t.walk_append left here before
      rw [happend _ (by simp)] at h
      cases hreach : t.reach left here before with
      | error e => rw [hreach] at h; cases h
      | ok dir =>
        rw [hreach] at h
        have hp : t.walk left' dir [".."] = .ok p := h
        rw [walk_up, walk_nil] at hp
        cases hp
        exact (reach_rooted hhere hreach).dropLast

theorem walk_of_reach {words : List String} (h : t.reach left here words = .ok p) :
    t.walk left here words = .ok p := by
  unfold reach at h
  induction left, here, words using walk_induction t with
  | nil left here => simpa using h
  | stay left here rest ih => simpa using ih (by simpa using h)
  | up left here rest ih => simpa using ih (by simpa using h)
  | long left here word rest hlong => simp [walk_long t left here _ hlong] at h
  | missing left here word rest hword hnone => simp [walk_missing left _ hword hnone] at h
  | enter left here word rest hword hdir ih =>
    rw [walk_enter left _ hword hdir]
    exact ih (by simpa [walk_enter left _ hword hdir] using h)
  | spent here word rest target hword hlink => simp [walk_spent _ hword hlink] at h
  | follow left here word rest target hword hlink ih =>
    rw [walk_follow left _ hword hlink]
    exact ih (by simpa [walk_follow left _ hword hlink] using h)
  | stop left here word rest e hword hstop he => simp [walk_stop left _ hword hstop he] at h

theorem reach_of_walk {words : List String} (h : t.walk left here words = .ok p)
    (hdir : t.get? p = some .dir) : t.reach left here words = .ok p := by
  unfold reach
  induction left, here, words using walk_induction t with
  | nil left here => simpa using h
  | stay left here rest ih => simpa using ih (by simpa using h)
  | up left here rest ih => simpa using ih (by simpa using h)
  | long left here word rest hlong => simp [walk_long t left here _ hlong] at h
  | missing left here word rest hword hnone =>
    rw [walk_missing left _ hword hnone] at h
    split at h
    · cases h
      rw [hnone] at hdir
      cases hdir
    · cases h
  | enter left here word rest hword hdir ih =>
    rw [List.cons_append, walk_enter left _ hword hdir]
    exact ih (by simpa [walk_enter left _ hword hdir] using h)
  | spent here word rest target hword hlink => simp [walk_spent _ hword hlink] at h
  | follow left here word rest target hword hlink ih =>
    rw [List.cons_append, walk_follow left _ hword hlink, ← List.append_assoc]
    exact ih (by simpa [walk_follow left _ hword hlink] using h)
  | stop left here word rest e hword hstop he =>
    rw [walk_stop left _ hword hstop he] at h
    split at h
    · cases h
      rw [hstop] at hdir
      cases hdir
      cases he
    · cases h

/-! ### Points that stay in place -/

theorem walk_stays {dots : List String} (h : ∀ word ∈ dots, word = ".") (t : Tree) (left : Nat)
    (here : Place) (rest : List String) :
    t.walk left here (dots ++ rest) = t.walk left here rest := by
  induction dots with
  | nil => rfl
  | cons dot dots ih =>
    rw [h dot List.mem_cons_self, List.cons_append, walk_stay,
      ih fun word hword => h word (List.mem_cons_of_mem _ hword)]

/-- The first word that is no single point, after which the two go on alike. -/
theorem walk_first {words : List String} (t : Tree) (hword : word ≠ ".")
    (h : (word :: rest).filter (· != ".") = words.filter (· != ".")) :
    ∃ rest', rest.filter (· != ".") = rest'.filter (· != ".") ∧
      ∀ left here more, t.walk left here (words ++ more) =
        t.walk left here (word :: (rest' ++ more)) := by
  rw [List.filter_cons_of_pos (by simpa using hword)] at h
  obtain ⟨dots, rest', rfl, hdots, -, hrest⟩ := List.filter_eq_cons_iff.mp h.symm
  refine ⟨rest', hrest.symm, fun left here more => ?_⟩
  rw [List.append_assoc, walk_stays (by simpa using hdots), List.cons_append]

/-- Words that differ in single points lead to the same directory. -/
theorem reach_congr (t : Tree) (left : Nat) (here : Place) {words words' : List String}
    (h : words.filter (· != ".") = words'.filter (· != ".")) :
    t.reach left here words = t.reach left here words' := by
  unfold reach
  induction left, here, words using walk_induction t generalizing words' with
  | nil left here =>
    have hdots : ∀ word ∈ words', word = "." := by simpa using h.symm
    rw [walk_stays hdots, List.nil_append]
  | stay left here rest ih => simpa using ih (by simpa using h)
  | up left here rest ih =>
    obtain ⟨rest', hrest, hwalk⟩ := t.walk_first (by decide) h
    rw [hwalk, List.cons_append, walk_up, walk_up, ih hrest]
  | long left here word rest hlong =>
    have hne : word ≠ "." := by rintro rfl; exact absurd hlong (by decide)
    obtain ⟨rest', -, hwalk⟩ := t.walk_first hne h
    rw [hwalk, List.cons_append, walk_long t left here _ hlong, walk_long t left here _ hlong]
  | missing left here word rest hword hnone =>
    obtain ⟨rest', -, hwalk⟩ := t.walk_first hword.not_here h
    simp [hwalk, walk_missing left _ hword hnone]
  | enter left here word rest hword hdir ih =>
    obtain ⟨rest', hrest, hwalk⟩ := t.walk_first hword.not_here h
    rw [hwalk, List.cons_append, walk_enter left _ hword hdir, walk_enter left _ hword hdir,
      ih hrest]
  | spent here word rest target hword hlink =>
    obtain ⟨rest', -, hwalk⟩ := t.walk_first hword.not_here h
    rw [hwalk, List.cons_append, walk_spent _ hword hlink, walk_spent _ hword hlink]
  | follow left here word rest target hword hlink ih =>
    obtain ⟨rest', hrest, hwalk⟩ := t.walk_first hword.not_here h
    -- the target's words stand in front of both
    have hall : (Path.steps target ++ rest).filter (· != ".") =
        (Path.steps target ++ rest').filter (· != ".") := by
      rw [List.filter_append, List.filter_append, hrest]
    rw [hwalk, List.cons_append, walk_follow left _ hword hlink, walk_follow left _ hword hlink,
      ← List.append_assoc, ← List.append_assoc, ih hall]
  | stop left here word rest e hword hstop he =>
    obtain ⟨rest', -, hwalk⟩ := t.walk_first hword.not_here h
    simp [hwalk, walk_stop left _ hword hstop he]

/-! ### Trees with the same ways -/

/-- The other tree has every directory and every link of this one. -/
def Keeps (t s : Tree) : Prop :=
  ∀ ⦃p e⦄, t.get? p = some e → e.leadsOn = true → s.get? p = some e

/-- A walk that gets somewhere gets there in the other tree as well, unless a way begins there that
was none. -/
theorem Keeps.walk (h : t.Keeps s) {words : List String} (hwalk : t.walk left here words = .ok p)
    (hlast : ∀ e, s.get? p = some e → e.leadsOn = true → t.get? p = some e) :
    s.walk left here words = .ok p := by
  induction left, here, words using walk_induction t with
  | nil left here => simpa using hwalk
  | stay left here rest ih => simpa using ih (by simpa using hwalk)
  | up left here rest ih => simpa using ih (by simpa using hwalk)
  | long left here word rest hlong => simp [walk_long t left here _ hlong] at hwalk
  | missing left here word rest hword hnone =>
    rw [walk_missing left _ hword hnone] at hwalk
    split at hwalk
    · cases hwalk
      rename_i hrest
      rw [List.isEmpty_iff.mp hrest]
      refine walk_last left hword fun target he => ?_
      rw [hlast _ he rfl] at hnone
      cases hnone
    · cases hwalk
  | enter left here word rest hword hdir ih =>
    rw [walk_enter left _ hword hdir] at hwalk
    rw [walk_enter left _ hword (h hdir rfl), ih hwalk]
  | spent here word rest target hword hlink =>
    simp [walk_spent _ hword hlink] at hwalk
  | follow left here word rest target hword hlink ih =>
    rw [walk_follow left _ hword hlink] at hwalk
    rw [walk_follow left _ hword (h hlink rfl), ih hwalk]
  | stop left here word rest e hword hstop he =>
    rw [walk_stop left _ hword hstop he] at hwalk
    split at hwalk
    · cases hwalk
      rename_i hrest
      rw [List.isEmpty_iff.mp hrest]
      refine walk_last left hword fun target he' => ?_
      rw [hlast _ he' rfl] at hstop
      cases hstop
      cases he
    · cases hwalk

theorem Keeps.reach (h : t.Keeps s) {words : List String} (hhere : t.Rooted here)
    (hreach : t.reach left here words = .ok p) : s.reach left here words = .ok p := by
  have hdir := (reach_rooted hhere hreach).get?
  refine h.walk hreach fun e he _ => ?_
  rw [h hdir rfl] at he
  rwa [he] at hdir

end Tree

end Vigil.Files
