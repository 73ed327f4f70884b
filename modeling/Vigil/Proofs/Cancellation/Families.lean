import Mathlib.Data.List.Induction
import Mathlib.Logic.Relation
import Vigil.Cancellation

/-! Families of tokens. A token is cancelled exactly if, by then, one was cancelled that it is
related to by cloning, in either direction and over any number of clones. -/
namespace Vigil.Tokens

/-- What is done with tokens, which are numbered in the order they were made. -/
inductive Move where
  | new
  | clone (token : Nat)
  | cancel (token : Nat)
  /-- A task begins to wait for the token to be cancelled. -/
  | wait (token : Nat)
  /-- A waiting task has a turn. They are numbered in the order they began. -/
  | turn (waiter : Nat)
deriving DecidableEq

namespace Move

/-- The token that is named. -/
def token? : Move → Option Nat
  | clone t | cancel t | wait t => some t
  | new | turn _ => none

/-- What a token that is made is a clone of, if it is one. -/
def origin? : Move → Option (Option Nat)
  | new => some none
  | clone t => some (some t)
  | cancel _ | wait _ | turn _ => none

def waited? : Move → Option Nat
  | wait t => some t
  | _ => none

end Move

variable {moves : List Move} {ts : Tokens} {t k : Nat}

/-- For each token that is there, the one that it was cloned from, if it was. One is there from the
first. -/
def origins (moves : List Move) : List (Option Nat) := none :: moves.filterMap Move.origin?

/-- The tokens that tasks wait on, in the order they began. -/
def waits (moves : List Move) : List Nat := moves.filterMap Move.waited?

/-- With so many tokens there, each move names one that is there by then. -/
def Lawful (there : Nat) : List Move → Prop
  | [] => True
  | m :: rest => (∀ t ∈ m.token?, t < there) ∧ Lawful (there + m.origin?.toList.length) rest

instance decidableLawful : (there : Nat) → (moves : List Move) → Decidable (Lawful there moves)
  | _, [] => .isTrue trivial
  | there, m :: rest =>
    have := decidableLawful (there + m.origin?.toList.length) rest
    inferInstanceAs (Decidable (_ ∧ _))

def Cloned (moves : List Move) (child parent : Nat) : Prop :=
  (origins moves)[child]? = some (some parent)

/-- Cloning leads from one to the other. -/
def SameFamily (moves : List Move) : Nat → Nat → Prop := Relation.EqvGen (Cloned moves)

/-- One of the token's family was cancelled. -/
def Cancelled (moves : List Move) (token : Nat) : Prop :=
  ∃ t, .cancel t ∈ moves ∧ SameFamily moves t token

def step (ts : Tokens) : Move → Tokens
  | .new => ts.new
  | .clone t => ts.clone t
  | .cancel t => ts.cancel t
  | .wait t => ts.wait t
  | .turn _ => ts

/-- Tokens have the same family number exactly if cloning leads from one to the other. -/
structure Numbered (moves : List Move) (ts : Tokens) : Prop where
  length : ts.families.length = (origins moves).length
  named : ∀ m ∈ moves, ∀ t, m.token? = some t → t < ts.families.length
  bounded : ∀ k < ts.families.length, ts.familyOf k < ts.flags.length
  cloned : ∀ child parent, Cloned moves child parent →
    parent < ts.families.length ∧ ts.familyOf child = ts.familyOf parent
  related : ∀ a < ts.families.length, ∀ b < ts.families.length,
    ts.familyOf a = ts.familyOf b → SameFamily moves a b

/-- Tokens, and whoever waits on them, are as the moves that led there say. -/
structure Sound (moves : List Move) (ts : Tokens) : Prop extends Numbered moves ts where
  flagged : ∀ f, ts.flags.getD f false = true ↔ ∃ t, .cancel t ∈ moves ∧ ts.familyOf t = f
  waiters : ts.waiters = (waits moves).map fun t => (ts.familyOf t, ts.isCancelled t)

/-! ### One move -/

section Step

variable {ts' : Tokens} {f : Nat}

theorem familyOf_of_append (h : ts'.families = ts.families ++ [f]) (hk : k < ts.families.length) :
    ts'.familyOf k = ts.familyOf k := by
  simp [familyOf, h, List.getElem?_append_left hk]

theorem getD_flags_new (ts : Tokens) (g : Nat) :
    ts.new.flags.getD g false = ts.flags.getD g false := by
  simp only [Tokens.new, List.getD_eq_getElem?_getD, List.getElem?_append]
  split
  · rfl
  · next hg =>
    rw [List.getElem?_eq_none (Nat.le_of_not_lt hg)]
    cases g - ts.flags.length <;> rfl

theorem waiters_cancel (t : Nat) : (ts.cancel t).waiters =
    ts.waiters.map fun w => if w.1 = ts.familyOf t then (w.1, true) else w := rfl

theorem getD_flags_cancel (ht : ts.familyOf t < ts.flags.length) (f : Nat) :
    (ts.cancel t).flags.getD f false = true ↔
      ts.flags.getD f false = true ∨ ts.familyOf t = f := by
  simp only [Tokens.cancel, List.getD_eq_getElem?_getD]
  by_cases hf : ts.familyOf t = f
  · subst hf
    simp [List.getElem?_set_self ht]
  · simp [List.getElem?_set_ne hf, hf]

/-- A token stays in its family. -/
theorem familyOf_step (m : Move) (hk : k < ts.families.length) :
    (ts.step m).familyOf k = ts.familyOf k := by
  cases m with
  | new | clone => exact familyOf_of_append rfl hk
  | cancel | wait | turn => rfl

variable {m : Move}

theorem getD_flags_step (hm : ∀ t, m = .cancel t → ts.familyOf t < ts.flags.length) (f : Nat) :
    (ts.step m).flags.getD f false = true ↔
      ts.flags.getD f false = true ∨ ∃ t, m = .cancel t ∧ ts.familyOf t = f := by
  cases m with
  | new =>
    rw [step, getD_flags_new]
    simp
  | cancel t =>
    rw [step, getD_flags_cancel (hm t rfl)]
    simp
  | clone | wait | turn => simp [step, Tokens.clone, Tokens.wait]

theorem isCancelled_step_iff (hk : k < ts.families.length)
    (hm : ∀ t, m = .cancel t → ts.familyOf t < ts.flags.length) :
    (ts.step m).isCancelled k = true ↔
      ts.isCancelled k = true ∨ ∃ t, m = .cancel t ∧ ts.familyOf t = ts.familyOf k := by
  rw [isCancelled, familyOf_step m hk]
  exact getD_flags_step hm (ts.familyOf k)

theorem isCancelled_step_of_ne (hk : k < ts.families.length) (hm : ∀ t, m ≠ .cancel t) :
    (ts.step m).isCancelled k = ts.isCancelled k := by
  rw [Bool.eq_iff_iff, isCancelled_step_iff hk fun t ht => absurd ht (hm t)]
  exact or_iff_left fun ⟨t, ht, _⟩ => hm t ht

theorem isCancelled_cancel_of_eq (hk : k < ts.families.length)
    (ht : ts.familyOf t < ts.flags.length) (h : ts.familyOf t = ts.familyOf k) :
    (ts.step (.cancel t)).isCancelled k = true := by
  refine (isCancelled_step_iff hk fun _ hm => ?_).mpr (.inr ⟨t, rfl, h⟩)
  rwa [← Move.cancel.inj hm]

/-- A cancellation does not reach beyond the family. -/
theorem isCancelled_cancel_of_ne (hk : k < ts.families.length)
    (ht : ts.familyOf t < ts.flags.length) (h : ts.familyOf t ≠ ts.familyOf k) :
    (ts.step (.cancel t)).isCancelled k = ts.isCancelled k := by
  have hm : ∀ t', .cancel t = Move.cancel t' → ts.familyOf t' < ts.flags.length := fun _ hm => by
    rwa [← Move.cancel.inj hm]
  rw [Bool.eq_iff_iff, isCancelled_step_iff hk hm]
  refine or_iff_left ?_
  rintro ⟨_, ht', hsame⟩
  exact h (by rw [← hsame, Move.cancel.inj ht'])

end Step

/-! ### Families -/

theorem origins_concat {m : Move} {origin : Option Nat} (h : m.origin? = some origin) :
    origins (moves ++ [m]) = origins moves ++ [origin] := by
  simp [origins, h]

theorem cloned_concat {m : Move} {origin : Option Nat} (h : m.origin? = some origin)
    (child parent : Nat) : Cloned (moves ++ [m]) child parent ↔
      Cloned moves child parent ∨ child = (origins moves).length ∧ origin = some parent := by
  rw [Cloned, Cloned, origins_concat h]
  rcases Nat.lt_trichotomy child (origins moves).length with hlt | rfl | hgt
  · simp [List.getElem?_append_left hlt, Nat.ne_of_lt hlt]
  · simp
  · rw [List.getElem?_eq_none (by simp; omega), List.getElem?_eq_none (by omega)]
    simp [Nat.ne_of_gt hgt]

theorem SameFamily.concat {m : Move} {origin : Option Nat} (h : m.origin? = some origin) {a b : Nat}
    (hab : SameFamily moves a b) : SameFamily (moves ++ [m]) a b :=
  Relation.EqvGen.mono (fun child parent hc => (cloned_concat h child parent).mpr (.inl hc)) a b hab

namespace Numbered

theorem fresh : Numbered [] {} where
  length := rfl
  named := nofun
  bounded := by simp [familyOf]
  cloned child parent h := by cases child <;> simp [Cloned, origins] at h
  related a ha b hb _ := by
    obtain rfl : a = 0 := by simpa using ha
    obtain rfl : b = 0 := by simpa using hb
    exact .refl 0

theorem familyOf_of_related (h : Numbered moves ts) {a b : Nat} (hab : SameFamily moves a b) :
    ts.familyOf a = ts.familyOf b := by
  induction hab with
  | rel child parent hc => exact (h.cloned child parent hc).2
  | refl => rfl
  | symm _ _ _ ih => exact ih.symm
  | trans _ _ _ _ _ ih₁ ih₂ => exact ih₁.trans ih₂

theorem sameFamily_iff (h : Numbered moves ts) {a b : Nat} (ha : a < ts.families.length)
    (hb : b < ts.families.length) : SameFamily moves a b ↔ ts.familyOf a = ts.familyOf b :=
  ⟨h.familyOf_of_related, h.related a ha b hb⟩

variable {m : Move} {ts' : Tokens}

theorem named_concat (h : Numbered moves ts)
    (hm : ∀ t, m.token? = some t → t < ts.families.length) :
    ∀ m' ∈ moves ++ [m], ∀ t, m'.token? = some t → t < ts.families.length := by
  intro m' hmem
  obtain hmem | hmem := List.mem_append.mp hmem
  · exact h.named m' hmem
  · rwa [List.mem_singleton.mp hmem]

/-- A move that makes no token leaves the families alone. -/
theorem keep (h : Numbered moves ts) (hm : ∀ t, m.token? = some t → t < ts.families.length)
    (hnone : m.origin? = none) (hfamilies : ts'.families = ts.families)
    (hflags : ts'.flags.length = ts.flags.length) : Numbered (moves ++ [m]) ts' := by
  have horigins : origins (moves ++ [m]) = origins moves := by simp [origins, hnone]
  have hcloned : Cloned (moves ++ [m]) = Cloned moves := by
    unfold Cloned
    rw [horigins]
  have hfamily (k : Nat) : ts'.familyOf k = ts.familyOf k := by rw [familyOf, hfamilies, familyOf]
  refine ⟨?_, ?_, ?_, ?_, ?_⟩
  · rw [hfamilies, horigins, h.length]
  · rw [hfamilies]
    exact h.named_concat hm
  · simpa only [hfamilies, hflags, hfamily] using h.bounded
  · simpa only [hcloned, hfamilies, hfamily] using h.cloned
  · simpa only [SameFamily, hcloned, hfamilies, hfamily] using h.related

/-- One token more, whose family is `f`. -/
structure Added (ts ts' : Tokens) (f : Nat) : Prop where
  families : ts'.families = ts.families ++ [f]
  flags : ts.flags.length ≤ ts'.flags.length
  fits : f < ts'.flags.length

namespace Added

variable {f : Nat}

theorem length (h : Added ts ts' f) : ts'.families.length = ts.families.length + 1 := by
  simp [h.families]

theorem lt_or_eq (h : Added ts ts' f) (hk : k < ts'.families.length) :
    k < ts.families.length ∨ k = ts.families.length := by
  rw [h.length] at hk
  omega

theorem familyOf_old (h : Added ts ts' f) (hk : k < ts.families.length) :
    ts'.familyOf k = ts.familyOf k := familyOf_of_append h.families hk

theorem familyOf_new (h : Added ts ts' f) : ts'.familyOf ts.families.length = f := by
  simp [familyOf, h.families]

end Added

variable {origin : Option Nat} {f : Nat}

/-- The newest token has relatives only if it is a clone, and then those of its origin. -/
theorem related_newest (h : Numbered moves ts) (horigin : m.origin? = some origin)
    (hnew : origin = none → f = ts.flags.length)
    (hclone : ∀ p, origin = some p → p < ts.families.length ∧ f = ts.familyOf p) {b : Nat}
    (hb : b < ts.families.length) (hfb : f = ts.familyOf b) :
    SameFamily (moves ++ [m]) ts.families.length b := by
  cases hcase : origin with
  | none =>
    have hlt := h.bounded b hb
    rw [← hfb, hnew hcase] at hlt
    exact absurd hlt (Nat.lt_irrefl _)
  | some p =>
    obtain ⟨hp, hfp⟩ := hclone p hcase
    have hpb := (h.related p hp b hb (hfp.symm.trans hfb)).concat horigin
    exact .trans _ p _ (.rel _ p ((cloned_concat horigin _ p).mpr (.inr ⟨h.length, hcase⟩))) hpb

/-- A new token is the first of a family, and a clone comes to the family of its origin. -/
theorem make (h : Numbered moves ts) (hm : ∀ t, m.token? = some t → t < ts.families.length)
    (horigin : m.origin? = some origin) (hnew : origin = none → f = ts.flags.length)
    (hclone : ∀ p, origin = some p → p < ts.families.length ∧ f = ts.familyOf p)
    (hadded : Added ts ts' f) : Numbered (moves ++ [m]) ts' := by
  have hnewest {b : Nat} (hb : b < ts.families.length) (hfb : f = ts.familyOf b) :=
    h.related_newest horigin hnew hclone hb hfb
  refine ⟨?_, ?_, ?_, ?_, ?_⟩
  · rw [hadded.length, h.length, origins_concat horigin, List.length_append, List.length_singleton]
  · intro m' hmem t ht
    exact Nat.lt_of_lt_of_eq (Nat.lt_succ_of_lt (h.named_concat hm m' hmem t ht)) hadded.length.symm
  · intro k hk
    obtain hk | rfl := hadded.lt_or_eq hk
    · rw [hadded.familyOf_old hk]
      exact Nat.lt_of_lt_of_le (h.bounded k hk) hadded.flags
    · rw [hadded.familyOf_new]
      exact hadded.fits
  · intro child parent hc
    have hlength := hadded.length
    obtain hc | ⟨hchild, hparent⟩ := (cloned_concat horigin child parent).mp hc
    · obtain ⟨hparent, hsame⟩ := h.cloned child parent hc
      have hchild : child < ts.families.length := by
        rw [h.length]
        exact (List.getElem?_eq_some_iff.mp hc).1
      exact ⟨by omega, by rw [hadded.familyOf_old hchild, hadded.familyOf_old hparent, hsame]⟩
    · obtain ⟨hp, hfp⟩ := hclone parent hparent
      rw [hchild, ← h.length, hadded.familyOf_new, hadded.familyOf_old hp]
      exact ⟨by omega, hfp⟩
  · intro a ha b hb hab
    obtain ha | rfl := hadded.lt_or_eq ha
    · rw [hadded.familyOf_old ha] at hab
      obtain hb | rfl := hadded.lt_or_eq hb
      · rw [hadded.familyOf_old hb] at hab
        exact (h.related a ha b hb hab).concat horigin
      · rw [hadded.familyOf_new] at hab
        exact .symm _ _ (hnewest ha hab.symm)
    · obtain hb | rfl := hadded.lt_or_eq hb
      · rw [hadded.familyOf_new, hadded.familyOf_old hb] at hab
        exact hnewest hb hab
      · exact .refl _

theorem step (h : Numbered moves ts) (hm : ∀ t, m.token? = some t → t < ts.families.length) :
    Numbered (moves ++ [m]) (ts.step m) := by
  cases m with
  | new =>
    have hadded : Added ts ts.new ts.flags.length :=
      ⟨rfl, by simp [Tokens.new], by simp [Tokens.new]⟩
    exact h.make hm rfl (fun _ => rfl) nofun hadded
  | clone t =>
    have ht := hm t rfl
    refine h.make hm rfl nofun (fun p hp => ?_) ⟨rfl, Nat.le_refl _, h.bounded t ht⟩
    rw [← Option.some.inj hp]
    exact ⟨ht, rfl⟩
  | cancel t => exact h.keep hm rfl rfl (by simp [Tokens.step, Tokens.cancel])
  | wait | turn => exact h.keep hm rfl rfl rfl

theorem bounded_of_cancel (h : Numbered moves ts)
    (hm : ∀ t, m.token? = some t → t < ts.families.length) (t : Nat) (ht : m = .cancel t) :
    ts.familyOf t < ts.flags.length :=
  h.bounded t (hm t (by rw [ht]; rfl))

end Numbered

/-! ### Flags and waiters -/

theorem mem_waits : t ∈ waits moves ↔ .wait t ∈ moves := by
  rw [waits, List.mem_filterMap]
  constructor
  · rintro ⟨m, hm, ht⟩
    cases m with
    | wait _ => rwa [← Option.some.inj ht]
    | _ => cases ht
  · exact fun h => ⟨.wait t, h, rfl⟩

theorem waits_concat (moves : List Move) (m : Move) :
    waits (moves ++ [m]) = waits moves ++ m.waited?.toList := by
  rw [waits, List.filterMap_append, waits]
  cases h : m.waited? <;> simp [h]

namespace Sound

variable {m : Move}

theorem fresh : Sound [] {} where
  toNumbered := .fresh
  flagged f := by cases f <;> simp
  waiters := rfl

theorem lt_of_mem_waits (h : Sound moves ts) (ht : t ∈ waits moves) : t < ts.families.length :=
  h.named _ (mem_waits.mp ht) t rfl

theorem isCancelled_iff (h : Sound moves ts) (hk : k < ts.families.length) :
    ts.isCancelled k = true ↔ Cancelled moves k := by
  rw [isCancelled, h.flagged]
  refine exists_congr fun t => and_congr_right fun ht => ?_
  exact (h.sameFamily_iff (h.named _ ht t rfl) hk).symm

theorem flagged_step (h : Sound moves ts) (hm : ∀ t, m.token? = some t → t < ts.families.length)
    (f : Nat) : (ts.step m).flags.getD f false = true ↔
      ∃ t, .cancel t ∈ moves ++ [m] ∧ (ts.step m).familyOf t = f := by
  have hmoved {t : Nat} (ht : .cancel t ∈ moves ++ [m]) : (ts.step m).familyOf t = ts.familyOf t :=
    familyOf_step m (h.named_concat hm _ ht t rfl)
  rw [getD_flags_step (h.bounded_of_cancel hm), h.flagged, ← exists_or]
  refine exists_congr fun t => ?_
  have hmem : .cancel t ∈ moves ++ [m] ↔ .cancel t ∈ moves ∨ m = .cancel t := by
    simp [eq_comm]
  rw [← or_and_right, ← hmem]
  exact and_congr_right fun ht => by rw [hmoved ht]

theorem waiters_step (h : Sound moves ts) (hm : ∀ t, m.token? = some t → t < ts.families.length) :
    (ts.step m).waiters =
      (waits (moves ++ [m])).map fun t => ((ts.step m).familyOf t, (ts.step m).isCancelled t) := by
  have hkept (hne : ∀ t, m ≠ .cancel t) : ts.waiters =
      (waits moves).map fun t => ((ts.step m).familyOf t, (ts.step m).isCancelled t) := by
    rw [h.waiters]
    refine List.map_congr_left fun t ht => ?_
    have hlt := h.lt_of_mem_waits ht
    rw [familyOf_step m hlt, isCancelled_step_of_ne hlt hne]
  rw [waits_concat]
  cases m with
  | new | clone | turn =>
    simp only [Move.waited?, Option.toList_none, List.append_nil]
    exact hkept nofun
  | wait t =>
    rw [List.map_append, ← hkept nofun]
    rfl
  | cancel t =>
    simp only [Move.waited?, Option.toList_none, List.append_nil]
    rw [Tokens.step, waiters_cancel, h.waiters, List.map_map]
    refine List.map_congr_left fun k hk => ?_
    have hlt := h.lt_of_mem_waits hk
    have hbound := h.bounded t (hm t rfl)
    rw [Function.comp_apply, ← Tokens.step, familyOf_step _ hlt]
    by_cases hsame : ts.familyOf t = ts.familyOf k
    · simp [hsame, isCancelled_cancel_of_eq hlt hbound hsame]
    · simp [Ne.symm hsame, isCancelled_cancel_of_ne hlt hbound hsame]

/-- One move, and with it every token as the moves say. -/
theorem step (h : Sound moves ts) (hm : ∀ t, m.token? = some t → t < ts.families.length) :
    Sound (moves ++ [m]) (ts.step m) where
  toNumbered := h.toNumbered.step hm
  flagged := h.flagged_step hm
  waiters := h.waiters_step hm

/-- To cancel a family once more leaves the tokens as they are. -/
theorem cancel_of_cancelled (h : Sound moves ts) (hcancelled : ts.isCancelled t = true) :
    ts.cancel t = ts := by
  have hflag : ts.flags[ts.familyOf t]? = some true := by
    rw [isCancelled, List.getD_eq_getElem?_getD] at hcancelled
    cases hf : ts.flags[ts.familyOf t]? with
    | none => simp [hf] at hcancelled
    | some flag => simpa [hf] using hcancelled
  have hflags : ts.flags.set (ts.familyOf t) true = ts.flags := by
    refine List.ext_getElem? fun f => ?_
    rw [List.getElem?_set]
    split
    · next hf =>
      subst hf
      rw [if_pos (List.getElem?_eq_some_iff.mp hflag).1, hflag]
    · rfl
  have hwaiters : (ts.cancel t).waiters = ts.waiters := by
    rw [waiters_cancel, h.waiters, List.map_map]
    refine List.map_congr_left fun k _ => ?_
    rw [Function.comp_apply]
    split
    · next hsame =>
      have hk : ts.isCancelled k = ts.isCancelled t := congrArg (ts.flags.getD · false) hsame
      rw [hk, hcancelled]
    · rfl
  rw [Tokens.cancel, hflags, ← waiters_cancel, hwaiters]

end Sound

theorem lawful_concat {there : Nat} {m : Move} : Lawful there (moves ++ [m]) ↔
    Lawful there moves ∧ ∀ t ∈ m.token?, t < there + (moves.filterMap Move.origin?).length := by
  induction moves generalizing there with
  | nil => simp [Lawful]
  | cons m' rest ih =>
    have hlength : (List.filterMap Move.origin? (m' :: rest)).length =
        m'.origin?.toList.length + (rest.filterMap Move.origin?).length := by
      rw [List.filterMap_cons]
      cases m'.origin? <;> simp [Nat.add_comm]
    rw [List.cons_append, Lawful, Lawful, ih, hlength, and_assoc, Nat.add_assoc]

theorem lawful_last {m : Move} (h : Lawful 1 (moves ++ [m])) :
    Lawful 1 moves ∧ ∀ t, m.token? = some t → t < (origins moves).length := by
  obtain ⟨hmoves, hm⟩ := lawful_concat.mp h
  refine ⟨hmoves, fun t ht => ?_⟩
  rw [origins, List.length_cons, Nat.add_comm]
  exact hm t ht

end Vigil.Tokens
