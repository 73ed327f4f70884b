import Mathlib.Data.List.Destutter
import Vigil.Shell.Presentation

/-! The lines of a whole run of events. Of the overlays up to the first shutdown each is shown that
differs from the one before it, and all else is shown as if nothing had come before. -/
namespace Vigil.Shell

@[simp] theorem Event.overlay?_overlay (o : Overlay) : (overlay o).overlay? = some o := rfl

theorem Event.cases_overlay (e : Event) : (∃ o, e = .overlay o) ∨ e.overlay? = none := by
  cases e with
  | overlay o => exact .inl ⟨o, rfl⟩
  | _ => exact .inr rfl

/-- The overlays among the events, the oldest first. -/
def overlaysOf (events : List Event) : List Overlay := events.filterMap Event.overlay?

namespace Overlay

/-- The overlays up to the first shutdown, with it. -/
def throughShutDown : List Overlay → List Overlay
  | [] => []
  | o :: rest => if o = .shutDown then [o] else o :: throughShutDown rest

def line (o : Overlay) : String := "== " ++ o.banner

end Overlay

open Overlay (throughShutDown line)

namespace Presentation

/-- The presentation behind the events. -/
def after (p : Presentation) (events : List Event) : Presentation :=
  events.foldl (fun p e => (p.render e).1) p

/-- The events, each with its line. -/
def drawn (p : Presentation) : List Event → List (Event × Option String)
  | [] => []
  | e :: rest => (e, (p.render e).2) :: (p.render e).1.drawn rest

/-- The lines drawn for overlays. -/
def overlayLines (p : Presentation) (events : List Event) : List String :=
  (p.drawn events).filterMap fun d => if d.1.overlay?.isSome then d.2 else none

/-- All that is no overlay, each with its line. -/
def contents (p : Presentation) (events : List Event) : List (Event × Option String) :=
  (p.drawn events).filter fun d => d.1.overlay?.isNone

variable {p : Presentation} {e : Event} {o : Overlay}

theorem renderAll_eq (p : Presentation) (events : List Event) :
    p.renderAll events = (p.after events, (p.drawn events).filterMap Prod.snd) := by
  induction events generalizing p with
  | nil => rfl
  | cons e rest ih =>
    simp only [renderAll, ih, drawn, List.filterMap_cons]
    cases (p.render e).2 <;> rfl

/-! ### One event -/

/-- What is no overlay is drawn whatever stands over it, and leaves that as it is. -/
theorem render_content (he : e.overlay? = none) :
    p.render e = (p, (({} : Presentation).render e).2) := by
  cases e with
  | overlay o => cases he
  | _ => rfl

theorem render_overlay (p : Presentation) (o : Overlay) : p.render (.overlay o) =
    if p.overlay = some .shutDown ∨ p.overlay = some o then (p, none)
    else (⟨some o⟩, some o.line) := rfl

theorem overlayLines_content (he : e.overlay? = none) (rest : List Event) :
    p.overlayLines (e :: rest) = p.overlayLines rest := by
  rw [overlayLines, drawn, render_content he, List.filterMap_cons_none (by simp [he]), overlayLines]

theorem overlayLines_kept (h : p.overlay = some .shutDown ∨ p.overlay = some o)
    (rest : List Event) : p.overlayLines (.overlay o :: rest) = p.overlayLines rest := by
  simp [overlayLines, drawn, render_overlay, h]

theorem overlayLines_new (hdown : p.overlay ≠ some .shutDown) (hnew : p.overlay ≠ some o)
    (rest : List Event) : p.overlayLines (.overlay o :: rest) =
      o.line :: (⟨some o⟩ : Presentation).overlayLines rest := by
  simp [overlayLines, drawn, render_overlay, hdown, hnew]

/-- A shutdown is covered by nothing. -/
theorem render_shutDown (h : p.overlay = some .shutDown) (e : Event) : (p.render e).1 = p := by
  obtain ⟨o, rfl⟩ | he := e.cases_overlay
  · rw [render_overlay, if_pos (.inl h)]
  · rw [render_content he]

/-! ### A run of events -/

theorem after_shutDown (h : p.overlay = some .shutDown) (events : List Event) :
    p.after events = p := by
  induction events with
  | nil => rfl
  | cons e rest ih => rwa [after, List.foldl_cons, render_shutDown h]

theorem overlay_after_of_mem {events : List Event} (h : .overlay .shutDown ∈ events)
    (p : Presentation) : (p.after events).overlay = some .shutDown := by
  obtain ⟨front, behind, rfl⟩ := List.append_of_mem h
  have hcut : p.after (front ++ .overlay .shutDown :: behind) =
      ((p.after front).render (.overlay .shutDown)).1.after behind := by
    simp [after]
  have hdown : ((p.after front).render (.overlay .shutDown)).1.overlay = some .shutDown := by
    rw [render_overlay]
    split
    · next h => exact h.elim id id
    · rfl
  rw [hcut, after_shutDown hdown, hdown]

theorem overlaysOf_content (he : e.overlay? = none) (rest : List Event) :
    overlaysOf (e :: rest) = overlaysOf rest := List.filterMap_cons_none he

/-- Behind a shutdown no overlay is shown. -/
theorem overlayLines_shutDown (h : p.overlay = some .shutDown) (events : List Event) :
    p.overlayLines events = [] := by
  induction events with
  | nil => rfl
  | cons e rest ih =>
    obtain ⟨o, rfl⟩ | he := e.cases_overlay
    · rw [overlayLines_kept (.inl h), ih]
    · rw [overlayLines_content he, ih]

/-- An overlay that is shown stands for all its repetitions. -/
theorem overlayLines_some (ho : o ≠ .shutDown) (events : List Event) :
    o.line :: (⟨some o⟩ : Presentation).overlayLines events =
      ((throughShutDown (overlaysOf events)).destutter' (· ≠ ·) o).map line := by
  induction events generalizing o with
  | nil => rfl
  | cons e rest ih =>
    obtain ⟨new, rfl⟩ | he := e.cases_overlay
    · have hoverlays : overlaysOf (.overlay new :: rest) = new :: overlaysOf rest := rfl
      rw [hoverlays, throughShutDown]
      by_cases hsame : o = new
      · subst hsame
        rw [overlayLines_kept (.inr rfl), if_neg ho, List.destutter'_cons_neg _ (by simp), ih ho]
      · rw [overlayLines_new (by simpa using ho) (by simpa using hsame)]
        by_cases hdown : new = .shutDown
        · subst hdown
          rw [overlayLines_shutDown rfl, if_pos rfl, List.destutter'_cons_pos _ hsame]
          rfl
        · rw [if_neg hdown, List.destutter'_cons_pos _ hsame, List.map_cons, ih hdown]
    · rw [overlayLines_content he, overlaysOf_content he, ih ho]

theorem overlayLines_fresh (events : List Event) : ({} : Presentation).overlayLines events =
    ((throughShutDown (overlaysOf events)).destutter (· ≠ ·)).map line := by
  induction events with
  | nil => rfl
  | cons e rest ih =>
    obtain ⟨o, rfl⟩ | he := e.cases_overlay
    · have hoverlays : overlaysOf (.overlay o :: rest) = o :: overlaysOf rest := rfl
      rw [hoverlays, throughShutDown, overlayLines_new (by simp) (by simp)]
      by_cases hdown : o = .shutDown
      · subst hdown
        rw [overlayLines_shutDown rfl, if_pos rfl]
        rfl
      · rw [if_neg hdown, List.destutter_cons', overlayLines_some hdown]
    · rw [overlayLines_content he, overlaysOf_content he, ih]

theorem overlayLines_append (p : Presentation) (front behind : List Event) :
    p.overlayLines (front ++ behind) =
      p.overlayLines front ++ (p.after front).overlayLines behind := by
  have hdrawn : p.drawn (front ++ behind) = p.drawn front ++ (p.after front).drawn behind := by
    induction front generalizing p with
    | nil => rfl
    | cons e rest ih =>
      rw [List.cons_append, drawn, ih]
      rfl
  rw [overlayLines, hdrawn, List.filterMap_append, overlayLines, overlayLines]

theorem contents_eq (p : Presentation) (events : List Event) : p.contents events =
    (events.filter fun e => e.overlay?.isNone).map fun e =>
      (e, (({} : Presentation).render e).2) := by
  induction events generalizing p with
  | nil => rfl
  | cons e rest ih =>
    unfold contents at ih
    obtain ⟨o, rfl⟩ | he := e.cases_overlay
    · simp [contents, drawn, ih]
    · rw [contents, drawn, render_content he]
      simp [he, ih]

/-- The lines of any events, taken together or one by one: the overlays up to the first shutdown are
shown without those that only repeat the one before, whatever comes between them, and behind a
shutdown none is; all else has the line that it would have by itself. -/
theorem lines_of_events (events : List Event) :
    let fresh : Presentation := {}
    (fresh.renderAll events).2 = (fresh.drawn events).filterMap Prod.snd ∧
    fresh.overlayLines events =
      ((throughShutDown (overlaysOf events)).destutter (· ≠ ·)).map line ∧
    (.overlay .shutDown ∈ events → ∀ behind,
      fresh.overlayLines (events ++ behind) = fresh.overlayLines events) ∧
    fresh.contents events = (events.filter fun e => e.overlay?.isNone).map fun e =>
      (e, (fresh.render e).2) := by
  intro fresh
  refine ⟨?_, overlayLines_fresh events, fun hdown behind => ?_, contents_eq fresh events⟩
  · rw [renderAll_eq]
  · have hnothing := overlayLines_shutDown (overlay_after_of_mem hdown fresh) behind
    rw [overlayLines_append, hnothing, List.append_nil]

/-- A repetition behind a log line, an overlay that comes back, and two overlays behind the
shutdown. -/
theorem interrupted_overlays_shown :
    let events : List Event := [.overlay .connecting, .log "line", .overlay .connecting,
      .overlay .none, .overlay .reconnecting, .overlay .none, .overlay .shutDown]
    let fresh : Presentation := {}
    .overlay .shutDown ∈ events ∧
    fresh.overlayLines (events ++ [.overlay .none, .overlay .shutDown]) =
      ["== connecting to daemon...", "== connected", "== connection lost, reconnecting...",
        "== connected", "== daemon shut down, exiting"] ∧
    fresh.contents events = [(.log "line", some "line")] := by
  intro events fresh
  obtain ⟨-, hlines, hbehind, hcontents⟩ := lines_of_events events
  have hdown : .overlay .shutDown ∈ events := by decide
  refine ⟨hdown, ?_, hcontents⟩
  rw [hbehind hdown, hlines]
  rfl

end Presentation

end Vigil.Shell
