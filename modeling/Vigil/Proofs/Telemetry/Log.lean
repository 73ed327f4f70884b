import Mathlib.Data.List.Infix
import Vigil.Proofs.Files.Ways
import Vigil.Telemetry

/-! The log of events and the one that was moved away before it: together they hold the latest
events, whole and in order, whatever the lengths of their lines. -/
namespace Vigil.Telemetry

open Files (Tree Place Entry Attempt)

variable {t s u : Tree} {dir p : Place}

/-! ### One event -/

theorem logOf_ne_oldLogOf (dir : Place) : logOf dir ≠ oldLogOf dir := by
  simp [logOf, oldLogOf]

theorem logOf_beyond (dir : Place) : ¬logOf dir <+: dir := Files.not_prefix_concat dir _

theorem oldLogOf_beyond (dir : Place) : ¬oldLogOf dir <+: dir := Files.not_prefix_concat dir _

def IsFull (t : Tree) (dir : Place) : Prop := logLimit ≤ (t.held (logOf dir)).length

instance (t : Tree) (dir : Place) : Decidable (IsFull t dir) := by unfold IsFull; infer_instance

/-- Both logs can be written, once their directory is there. -/
structure Ready (t : Tree) (dir : Place) : Prop where
  log : t.Writable (logOf dir)
  old : t.Writable (oldLogOf dir)

theorem exists_of_isFull (hfull : IsFull t dir) (h : t.Writable (logOf dir)) :
    ∃ bytes, t.get? (logOf dir) = some (.file bytes) := by
  cases he : t.get? (logOf dir) with
  | none =>
    rw [IsFull, Tree.held_of_none he] at hfull
    exact absurd hfull (by decide)
  | some e =>
    obtain ⟨bytes, rfl⟩ := h e he
    exact ⟨bytes, rfl⟩

theorem rotate_of_not_isFull (hfull : ¬IsFull t dir) : rotate t dir = .start t := by
  unfold rotate
  split
  · next bytes hlog =>
    rw [IsFull, Tree.held_of_file hlog] at hfull
    rw [if_neg hfull]
  · rfl

/-- A full log takes the place of the old one, and then there is none. -/
theorem rotate_of_isFull (hdir : t.get? dir = some .dir) (h : Ready t dir) (hfull : IsFull t dir) :
    ∃ m, rotate t dir = .start m ∧ ∀ p, m.get? p =
      if p = oldLogOf dir then some (.file (t.held (logOf dir)))
      else if p = logOf dir then none
      else t.get? p := by
  obtain ⟨bytes, hlog⟩ := exists_of_isFull hfull h.log
  have hheld : t.held (logOf dir) = bytes := Tree.held_of_file hlog
  have hlimit : logLimit ≤ bytes.length := hheld ▸ hfull
  have hlogNe : logOf dir ≠ [] := by simp [logOf]
  have holdNe : oldLogOf dir ≠ [] := by simp [oldLogOf]
  have hdirNe : dir ≠ oldLogOf dir := fun h => oldLogOf_beyond dir (h ▸ List.prefix_refl _)
  -- the tree without the old log, which is the same if there was none
  generalize hcleared : (t.removeFile (oldLogOf dir)).toOption.getD t = cleared
  have hget : ∀ q, cleared.get? q = if q = oldLogOf dir then none else t.get? q :=
    hcleared ▸ Tree.removed_get? holdNe h.old
  have hmove : cleared.rename (logOf dir) (oldLogOf dir) =
      .ok ((cleared.erase (logOf dir)).put (oldLogOf dir) (.file bytes)) := by
    refine Tree.rename_concat ?_ ?_ ?_
    · rw [hget, if_neg hdirNe, hdir]
    · rw [hget, if_neg (logOf_ne_oldLogOf dir), hlog]
    · rw [← oldLogOf, hget, if_pos rfl]
      simp
  refine ⟨(cleared.erase (logOf dir)).put (oldLogOf dir) (.file bytes), ?_, fun p => ?_⟩
  · simp only [rotate, hlog, if_pos hlimit, hcleared, Attempt.next, Attempt.start, hmove]
  · rw [Tree.get?_put _ holdNe, Tree.get?_erase _ hlogNe, hget, hheld]
    by_cases hp : p = oldLogOf dir <;> simp [hp]

/-- What can be written depends on the logs alone. -/
theorem Ready.congr (h : Ready t dir) (hlog : s.get? (logOf dir) = t.get? (logOf dir))
    (hold : s.get? (oldLogOf dir) = t.get? (oldLogOf dir)) : Ready s dir where
  log e he := h.log e (hlog ▸ he)
  old e he := h.old e (hold ▸ he)

/-- The tree that the line of an event is written to: the directories are there, and a full log has
taken the place of the old one. -/
def Prepared (t : Tree) (dir : Place) (m : Tree) : Prop :=
  ∀ p, m.get? p =
    if p = oldLogOf dir ∧ IsFull t dir then some (.file (t.held (logOf dir)))
    else if p = logOf dir ∧ IsFull t dir then none
    else if p <+: dir then some .dir
    else t.get? p

theorem rotated (hclear : t.Clear dir) (h : Ready t dir) (hmade : t.makeDirs dir = .ok s) :
    ∃ m, rotate s dir = .start m ∧ Prepared t dir m := by
  have hget := hclear.of_makeDirs hmade
  have hlog : s.get? (logOf dir) = t.get? (logOf dir) := by
    rw [hget, if_neg (logOf_beyond dir)]
  have hold : s.get? (oldLogOf dir) = t.get? (oldLogOf dir) := by
    rw [hget, if_neg (oldLogOf_beyond dir)]
  have hdir : s.get? dir = some .dir := by rw [hget, if_pos (List.prefix_refl _)]
  have hheld : s.held (logOf dir) = t.held (logOf dir) := Tree.held_congr hlog
  have hfull : IsFull s dir ↔ IsFull t dir := by rw [IsFull, IsFull, hheld]
  by_cases hs : IsFull t dir
  · obtain ⟨m, hrotate, hm⟩ := rotate_of_isFull hdir (h.congr hlog hold) (hfull.mpr hs)
    exact ⟨m, hrotate, fun p => by simp only [hm, hheld, hget, hs, and_true]⟩
  · exact ⟨s, rotate_of_not_isFull (mt hfull.mp hs), fun p => by simp [hget, hs]⟩

/-- The line of an event comes behind what the log holds once it had to be moved or not. -/
theorem writeEvent_eq (hclear : t.Clear dir) (h : Ready t dir) (e : Event) :
    ∃ s m, t.makeDirs dir = .ok s ∧ rotate s dir = .start m ∧ Prepared t dir m ∧
      writeEvent t dir e =
        m.put (logOf dir) (.file (m.held (logOf dir) ++ Utf8.encode e.line)) := by
  obtain ⟨s, hmade, -⟩ := hclear.makeDirs
  obtain ⟨m, hrotate, hm⟩ := rotated hclear h hmade
  have hdir : m.get? dir = some .dir := by
    have hlogNe : dir ≠ logOf dir := fun h => logOf_beyond dir (h ▸ List.prefix_refl _)
    have holdNe : dir ≠ oldLogOf dir := fun h => oldLogOf_beyond dir (h ▸ List.prefix_refl _)
    simp [hm dir, hlogNe, holdNe]
  have hwritable : m.Writable (logOf dir) := fun e he => by
    rw [hm, if_neg (by simp [logOf_ne_oldLogOf])] at he
    split at he
    · cases he
    · rw [if_neg (logOf_beyond dir)] at he
      exact h.log e he
  have happend := Tree.append_concat hdir hwritable (Utf8.encode e.line)
  refine ⟨s, m, hmade, hrotate, hm, ?_⟩
  simp only [writeEvent, hmade, hrotate, Attempt.next, Attempt.start]
  rw [logOf, happend]

/-! ### Many events -/

/-- The lines of events, one after the other. -/
def textOf (es : List Event) : List UInt8 := es.flatMap fun e => Utf8.encode e.line

@[simp] theorem textOf_append (es es' : List Event) : textOf (es ++ es') = textOf es ++ textOf es' :=
  List.flatMap_append

/-- A file of lines, which is not there before the first. -/
def fileOf : List Event → Option Entry
  | [] => none
  | e :: es => some (.file (textOf (e :: es)))

theorem held_of_fileOf {es : List Event} (h : t.get? p = fileOf es) : t.held p = textOf es := by
  cases es with
  | nil => exact Tree.held_of_none h
  | cons e es => exact Tree.held_of_file h

theorem writable_of_fileOf {es : List Event} (h : t.get? p = fileOf es) : t.Writable p := by
  cases es with
  | nil => exact Tree.writable_of_none h
  | cons e' es =>
    intro e he
    rw [h] at he
    cases he
    exact ⟨_, rfl⟩

theorem fileOf_concat (es : List Event) (e : Event) :
    fileOf (es ++ [e]) = some (.file (textOf es ++ Utf8.encode e.line)) := by
  have htext : textOf (es ++ [e]) = textOf es ++ Utf8.encode e.line := by simp [textOf]
  rw [← htext]
  cases es <;> rfl

/-- Of all the events that were written the old log holds `front` and the log `back`. -/
structure Split (t : Tree) (dir : Place) (es lost front back : List Event) : Prop where
  all : es = lost ++ front ++ back
  log : t.get? (logOf dir) = fileOf back
  old : t.get? (oldLogOf dir) = fileOf front
  gone : lost ≠ [] → logLimit ≤ (textOf lost).length
  full : front ≠ [] → logLimit ≤ (textOf front).length
  room : (textOf back.dropLast).length < logLimit
  latest : front ++ back = [] → es = []

namespace Split

variable {es lost front back : List Event}

theorem ready (h : Split t dir es lost front back) : Ready t dir :=
  ⟨writable_of_fileOf h.log, writable_of_fileOf h.old⟩

theorem isFull_iff (h : Split t dir es lost front back) :
    IsFull t dir ↔ logLimit ≤ (textOf back).length := by
  rw [IsFull, held_of_fileOf h.log]

theorem ne_nil_of_isFull (h : Split t dir es lost front back) (hfull : IsFull t dir) :
    back ≠ [] := by
  rintro rfl
  rw [h.isFull_iff] at hfull
  exact absurd hfull (by decide)

theorem congr (h : Split t dir es lost front back) (hlog : s.get? (logOf dir) = t.get? (logOf dir))
    (hold : s.get? (oldLogOf dir) = t.get? (oldLogOf dir)) : Split s dir es lost front back :=
  { h with log := hlog.trans h.log, old := hold.trans h.old }

/-- Only full logs are lost. -/
theorem gone_with_old (h : Split t dir es lost front back) (hne : lost ++ front ≠ []) :
    logLimit ≤ (textOf (lost ++ front)).length := by
  rw [textOf_append, List.length_append]
  by_cases hfront : front = []
  · have hlost := h.gone (by simpa [hfront] using hne)
    omega
  · have hfull := h.full hfront
    omega

/-- The old log is removed. -/
theorem cleared (h : Split t dir es lost front back) (hfull : IsFull t dir)
    (hlog : s.get? (logOf dir) = t.get? (logOf dir)) (hold : s.get? (oldLogOf dir) = none) :
    Split s dir es (lost ++ front) [] back where
  all := by rw [h.all, List.append_nil]
  log := hlog.trans h.log
  old := hold
  gone := h.gone_with_old
  full hne := absurd rfl hne
  room := h.room
  latest hnil := absurd hnil (h.ne_nil_of_isFull hfull)

/-- The log has become the old one. -/
theorem moved (h : Split t dir es lost front back) (hfull : IsFull t dir)
    (hlog : s.get? (logOf dir) = none)
    (hold : s.get? (oldLogOf dir) = some (.file (t.held (logOf dir)))) :
    Split s dir es (lost ++ front) back [] where
  all := by rw [h.all, List.append_nil]
  log := hlog
  old := by
    have hback := h.ne_nil_of_isFull hfull
    rw [hold, held_of_fileOf h.log]
    cases back with
    | nil => exact absurd rfl hback
    | cons e back => rfl
  gone := h.gone_with_old
  full _ := h.isFull_iff.mp hfull
  room := by decide
  latest hnil := absurd (List.append_eq_nil_iff.mp hnil).1 (h.ne_nil_of_isFull hfull)

/-- A line is appended to a log with room for it. -/
theorem appended (h : Split t dir es lost front back) (hroom : (textOf back).length < logLimit)
    (e : Event) (hlog : s.get? (logOf dir) =
      some (.file (t.held (logOf dir) ++ Utf8.encode e.line)))
    (hold : s.get? (oldLogOf dir) = t.get? (oldLogOf dir)) :
    Split s dir (es ++ [e]) lost front (back ++ [e]) where
  all := by simp [h.all]
  log := by rw [hlog, held_of_fileOf h.log, fileOf_concat]
  old := hold.trans h.old
  gone := h.gone
  full := h.full
  room := by rwa [List.dropLast_concat]
  latest hnil := by simp at hnil

/-- Before a line is written there is room for it. -/
theorem rotated (h : Split t dir es lost front back) (hclear : t.Clear dir)
    (hmade : t.makeDirs dir = .ok s) : ∃ lost' front' back',
      Split (rotate s dir).tree dir es lost' front' back' ∧ (textOf back').length < logLimit := by
  obtain ⟨m, hrotate, hm⟩ := Telemetry.rotated hclear h.ready hmade
  have hne := logOf_ne_oldLogOf dir
  have hlog := hm (logOf dir)
  have hold := hm (oldLogOf dir)
  rw [hrotate]
  by_cases hfull : IsFull t dir
  · simp only [hfull, hne, and_true, if_true, if_false] at hlog hold
    exact ⟨_, _, _, h.moved hfull hlog hold, by decide⟩
  · simp only [hfull, logOf_beyond, oldLogOf_beyond, and_false, if_false] at hlog hold
    exact ⟨_, _, _, h.congr hlog hold, not_le.mp (mt h.isFull_iff.mpr hfull)⟩

theorem writeEvent (h : Split t dir es lost front back) (hclear : t.Clear dir) (e : Event) :
    ∃ lost' front' back', Split (writeEvent t dir e) dir (es ++ [e]) lost' front' back' := by
  obtain ⟨s, m, hmade, hrotate, -, hwrite⟩ := writeEvent_eq hclear h.ready e
  obtain ⟨lost', front', back', hsplit, hroom⟩ := h.rotated hclear hmade
  rw [hrotate] at hsplit
  have hget := Tree.get?_put m (p := logOf dir) (by simp [logOf])
    (.file (m.held (logOf dir) ++ Utf8.encode e.line))
  refine ⟨_, _, _, hsplit.appended hroom e ?_ ?_⟩
  · rw [hwrite, hget, if_pos rfl]
    rfl
  · rw [hwrite, hget, if_neg (logOf_ne_oldLogOf dir).symm]
    rfl

end Split

theorem writeEvent_clear (hclear : t.Clear dir) (h : Ready t dir) (e : Event) :
    (writeEvent t dir e).Clear dir := fun p hp => by
  obtain ⟨-, m, -, -, hm, hwrite⟩ := writeEvent_eq hclear h e
  have hlog : p ≠ logOf dir := fun h => logOf_beyond dir (h ▸ hp)
  have hold : p ≠ oldLogOf dir := fun h => oldLogOf_beyond dir (h ▸ hp)
  have hdir := hm p
  simp only [hlog, hold, hp, false_and, if_false, if_true] at hdir
  right
  rw [hwrite, Tree.get?_put _ (by simp [logOf]), if_neg hlog, hdir]

/-- The trees after events have been written, one after the other. In between anything may be done
that touches neither the logs nor the way to them. -/
inductive History (t : Tree) (dir : Place) : List Event → Tree → Prop
  | start : History t dir [] t
  | write {es : List Event} {s : Tree} (h : History t dir es s) (e : Event) :
    History t dir (es ++ [e]) (writeEvent s dir e)
  | elsewhere {es : List Event} {s u : Tree} (h : History t dir es s)
    (hkept : ∀ p, p <+: dir ∨ p = logOf dir ∨ p = oldLogOf dir → u.get? p = s.get? p) :
    History t dir es u

/-- The trees that stand while an event is being written, until its line comes behind the log. -/
inductive Moment (t : Tree) (dir : Place) : Tree → Prop
  | before : Moment t dir t
  | made {s : Tree} (hmade : t.makeDirs dir = .ok s) : Moment t dir s
  | cleared {s u : Tree} (hmade : t.makeDirs dir = .ok s) (hfull : IsFull s dir)
    (hcleared : s.removeFile (oldLogOf dir) = .ok u) : Moment t dir u
  | moved {s : Tree} (hmade : t.makeDirs dir = .ok s) : Moment t dir (rotate s dir).tree

variable {es : List Event}

theorem History.split (hclear : t.Clear dir) (habsent : ∀ p, dir <+: p → t.get? p = none)
    (h : History t dir es s) :
    s.Clear dir ∧ ∃ lost front back, Split s dir es lost front back := by
  induction h with
  | start =>
    refine ⟨hclear, [], [], [], rfl, habsent _ (List.prefix_append _ _),
      habsent _ (List.prefix_append _ _), by simp, by simp, by decide, fun _ => rfl⟩
  | write h e ih =>
    obtain ⟨hclear, lost, front, back, hsplit⟩ := ih
    exact ⟨writeEvent_clear hclear hsplit.ready e, hsplit.writeEvent hclear e⟩
  | elsewhere h hkept ih =>
    obtain ⟨hclear, lost, front, back, hsplit⟩ := ih
    refine ⟨fun p hp => ?_, lost, front, back,
      hsplit.congr (hkept _ (.inr (.inl rfl))) (hkept _ (.inr (.inr rfl)))⟩
    rw [hkept p (.inl hp)]
    exact hclear p hp

theorem Moment.split {lost front back : List Event} (hclear : s.Clear dir)
    (h : Split s dir es lost front back) (hu : Moment s dir u) :
    ∃ lost' front' back', Split u dir es lost' front' back' := by
  have hmake {m : Tree} (hmade : s.makeDirs dir = .ok m) : Split m dir es lost front back := by
    have hget := hclear.of_makeDirs hmade
    refine h.congr ?_ ?_
    · rw [hget, if_neg (logOf_beyond dir)]
    · rw [hget, if_neg (oldLogOf_beyond dir)]
  cases hu with
  | before => exact ⟨_, _, _, h⟩
  | made hmade => exact ⟨_, _, _, hmake hmade⟩
  | @cleared m _ hmade hfull hcleared =>
    have hm := hmake hmade
    have hremoved := Tree.removed_get? (by simp [oldLogOf]) hm.ready.old
    simp only [hcleared, Except.toOption, Option.getD_some] at hremoved
    refine ⟨_, _, _, hm.cleared hfull ?_ ?_⟩
    · rw [hremoved, if_neg (logOf_ne_oldLogOf dir)]
    · rw [hremoved, if_pos rfl]
  | moved hmade =>
    obtain ⟨_, _, _, hsplit, -⟩ := h.rotated hclear hmade
    exact ⟨_, _, _, hsplit⟩

/-! ### What the logs hold -/

theorem length_textOf_getLast? (es : List Event) :
    (textOf es).length = (textOf es.dropLast).length + (textOf es.getLast?.toList).length := by
  obtain rfl | ⟨init, e, rfl⟩ := List.eq_nil_or_concat es
  · rfl
  · simp [textOf]

namespace Split

variable {es lost front back : List Event}

theorem held_eq (h : Split t dir es lost front back) :
    t.held (oldLogOf dir) ++ t.held (logOf dir) = textOf (front ++ back) := by
  rw [held_of_fileOf h.old, held_of_fileOf h.log, textOf_append]

theorem suffix (h : Split t dir es lost front back) :
    t.held (oldLogOf dir) ++ t.held (logOf dir) <:+ textOf es := by
  rw [h.held_eq, h.all, List.append_assoc, textOf_append lost]
  exact List.suffix_append _ _

theorem last (h : Split t dir es lost front back) {e : Event} (he : e ∈ es.getLast?) :
    Utf8.encode e.line <:+ t.held (oldLogOf dir) ++ t.held (logOf dir) := by
  have hne : front ++ back ≠ [] := fun hnil => by
    rw [h.latest hnil] at he
    cases he
  obtain ⟨init, e', hconcat⟩ := (List.eq_nil_or_concat (front ++ back)).resolve_left hne
  rw [List.concat_eq_append] at hconcat
  have hlast : es.getLast? = some e' := by
    rw [h.all, List.append_assoc, hconcat, ← List.append_assoc, List.getLast?_concat]
  rw [hlast] at he
  cases he
  rw [h.held_eq, hconcat, textOf_append]
  exact ⟨textOf init, by simp [textOf]⟩

theorem old_absent_or_large (h : Split t dir es lost front back) :
    t.get? (oldLogOf dir) = none ∨ logLimit ≤ (t.held (oldLogOf dir)).length := by
  by_cases hfront : front = []
  · exact .inl (by rw [h.old, hfront]; rfl)
  · exact .inr (by rw [held_of_fileOf h.old]; exact h.full hfront)

end Split

/-- From a directory that is not there, and that nothing stands in the way of: at every moment the
old log and the log together hold the last of the events written so far, whole and in order. The
old log is not there or full, and the log was not full before its last line. As long as less than a
full log was written nothing is lost. -/
theorem log_holds_latest (hclear : t.Clear dir) (habsent : ∀ p, dir <+: p → t.get? p = none)
    {es : List Event} (h : History t dir es s) (hu : Moment s dir u) :
    let old := u.held (oldLogOf dir)
    let log := u.held (logOf dir)
    old ++ log <:+ textOf es ∧
    (∀ e ∈ es.getLast?, Utf8.encode e.line <:+ old ++ log) ∧
    (u.get? (oldLogOf dir) = none ∨ logLimit ≤ old.length) ∧
    ∃ lost front back, es = lost ++ front ++ back ∧ old = textOf front ∧ log = textOf back ∧
      log.length < logLimit + (textOf back.getLast?.toList).length ∧
      (lost = [] ∨ logLimit ≤ (textOf lost).length) := by
  intro old log
  obtain ⟨hclear', _, _, _, hs⟩ := h.split hclear habsent
  obtain ⟨lost, front, back, hsplit⟩ := hu.split hclear' hs
  have hlog : log = textOf back := held_of_fileOf hsplit.log
  have hlength := length_textOf_getLast? back
  have hroom := hsplit.room
  exact ⟨hsplit.suffix, fun e he => hsplit.last he, hsplit.old_absent_or_large, lost, front, back,
    hsplit.all, held_of_fileOf hsplit.old, hlog, by rw [hlog]; omega,
    or_iff_not_imp_left.mpr hsplit.gone⟩

/-- The first of the two events fills the log alone, so that the log is moved away before the
second. -/
theorem two_events_logged :
    let t : Tree := {}
    let dir := dirOf ["root"] "watchfire-shell"
    let large : Event := ⟨String.ofList (List.replicate logLimit 'x'), 0, "", "", "", []⟩
    let small : Event := ⟨"ready", 1, "", "", "", [("pid", "42")]⟩
    let u := writeEvent (writeEvent t dir large) dir small
    (t.Clear dir ∧ (∀ p, dir <+: p → t.get? p = none) ∧ History t dir [large, small] u ∧
      Moment u dir u) ∧
    u.held (oldLogOf dir) ++ u.held (logOf dir) <:+ textOf [large, small] ∧
    Utf8.encode small.line <:+ u.held (oldLogOf dir) ++ u.held (logOf dir) := by
  intro t dir large small u
  have hclear : t.Clear dir := Tree.clear_empty dir
  have habsent : ∀ p, dir <+: p → t.get? p = none := fun p hp => by
    apply Tree.get?_empty
    rintro rfl
    exact absurd hp (by decide)
  have hhistory : History t dir [large, small] u := .write (.write .start large) small
  obtain ⟨hsuffix, hlast, -⟩ := log_holds_latest hclear habsent hhistory .before
  exact ⟨⟨hclear, habsent, hhistory, .before⟩, hsuffix, hlast small rfl⟩

end Vigil.Telemetry
