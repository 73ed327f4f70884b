import Vigil.Daemon.Ensure
import Vigil.Daemon.Watch

/-! What a search for a daemon asks and does, and all that it can come to. -/
namespace Vigil.Daemon

variable {σ : Type}

/-- `P` holds of every deed together with what was done before it. -/
def Along (P : List Deed → Deed → Prop) (deeds : List Deed) : Prop :=
  ∀ earlier d later, deeds = earlier ++ d :: later → P earlier d

theorem along_nil (P : List Deed → Deed → Prop) : Along P [] := by
  intro earlier d later heq
  simp at heq

theorem Along.concat {P : List Deed → Deed → Prop} {deeds : List Deed} (h : Along P deeds)
    {d : Deed} (hd : P deeds d) : Along P (deeds ++ [d]) := by
  intro earlier d' later heq
  rcases List.eq_nil_or_concat later with rfl | ⟨front, last, rfl⟩
  · obtain ⟨hdeeds, hlast⟩ := List.append_inj' heq rfl
    have hsame : d = d' := List.cons.inj hlast |>.1
    rw [← hdeeds, ← hsame]
    exact hd
  · have hassoc : deeds ++ [d] = (earlier ++ d' :: front) ++ [last] := by
      simpa using heq
    exact h earlier d' front (List.append_inj' hassoc rfl).1

namespace Supervision

variable (s : Supervision σ)

/-- The deeds so far, the oldest first. -/
def deeds : List Deed := (s.trail.map (·.2)).reverse

@[simp] theorem note_world (d : Deed) : (s.note d).world = s.world := rfl

@[simp] theorem note_now (d : Deed) : (s.note d).now = s.now := rfl

@[simp] theorem note_session (d : Deed) : (s.note d).session = s.session := rfl

@[simp] theorem note_deeds (d : Deed) : (s.note d).deeds = s.deeds ++ [d] := by
  simp [deeds, note]

@[simp] theorem tell_world (n : Notice) : (s.tell n).world = s.world := rfl

@[simp] theorem tell_now (n : Notice) : (s.tell n).now = s.now := rfl

@[simp] theorem tell_session (n : Notice) : (s.tell n).session = s.session := rfl

@[simp] theorem tell_deeds (n : Notice) : (s.tell n).deeds = s.deeds ++ [.tell n] :=
  s.note_deeds (.tell n)

@[simp] theorem write_world (session : Session) : (s.write session).world = s.world := rfl

@[simp] theorem write_now (session : Session) : (s.write session).now = s.now := rfl

@[simp] theorem write_session (session : Session) : (s.write session).session = session := rfl

@[simp] theorem write_deeds (session : Session) :
    (s.write session).deeds = s.deeds ++ [.write session] := note_deeds _ (.write session)

/-- The same supervisor in other surroundings. -/
def within (world : σ) : Supervision σ := { s with world }

@[simp] theorem within_world (world : σ) : (s.within world).world = world := rfl

@[simp] theorem within_now (world : σ) : (s.within world).now = s.now := rfl

@[simp] theorem within_session (world : σ) : (s.within world).session = s.session := rfl

@[simp] theorem within_deeds (world : σ) : (s.within world).deeds = s.deeds := rfl

end Supervision

/-- What a turn meets: surroundings that may have changed in any way, the time that has gone by,
and whether it is told to stop. -/
structure Moment (σ : Type) where
  world : σ
  elapsed : Nat := 0
  cancelled : Bool := false

def Supervision.meet (s : Supervision σ) (m : Moment σ) : Supervision σ :=
  { s with world := m.world, now := s.now + m.elapsed }

namespace Supervision

variable (s : Supervision σ) (m : Moment σ)

@[simp] theorem meet_world : (s.meet m).world = m.world := rfl

@[simp] theorem meet_now : (s.meet m).now = s.now + m.elapsed := rfl

@[simp] theorem meet_session : (s.meet m).session = s.session := rfl

@[simp] theorem meet_deeds : (s.meet m).deeds = s.deeds := rfl

end Supervision

namespace Supervisor

variable (v : Supervisor σ) (s : Supervision σ)

@[simp] theorem probe_eq (pid : UInt32) :
    v.probe s pid = (v.surroundings.isAlive s.world pid,
      s.note (.probe pid (v.surroundings.isAlive s.world pid))) := rfl

@[simp] theorem readLive_eq :
    v.readLive s = (v.surroundings.live s.world,
      s.note (.readLive (v.surroundings.live s.world))) := rfl

@[simp] theorem readLeft_eq :
    v.readLeft s = (v.surroundings.left s.world,
      s.note (.readLeft (v.surroundings.left s.world))) := rfl

@[simp] theorem find_eq :
    v.find s = (v.surroundings.find s.world, s.note (.find (v.surroundings.find s.world))) := rfl

@[simp] theorem launch_eq (path : String) :
    v.launch s path = ((v.surroundings.launch s.world path).2,
      (s.within (v.surroundings.launch s.world path).1).note
        (.launch path (v.surroundings.launch s.world path).2)) := rfl

/-- When a look is due depends on nothing but the instant. -/
theorem await_congr {s s' : Supervision σ} (h : s.now = s'.now) (n : Nat) :
    v.await s n = v.await s' n := by
  rw [await, await, h]

/-- A search never finds a daemon by waiting for it. -/
theorem await_ne_found (n : Nat) (r : Record) : v.await s n ≠ .found r := by
  unfold await
  split <;> simp

/-- A search that found no live daemon, about to look for an executable. -/
def searching (s : Supervision σ) : Supervision σ :=
  if s.session.phase = .restarting then s.note (.readLive none)
  else (s.note (.readLive none)).write { s.session with phase := .starting }

@[simp] theorem searching_world : (searching s).world = s.world := by
  unfold searching
  split <;> rfl

@[simp] theorem searching_now : (searching s).now = s.now := by
  unfold searching
  split <;> rfl

/-- All that the beginning of a search can come to. -/
inductive Begun : Progress → Supervision σ → Prop where
  | found (r : Record) (hlive : v.surroundings.live s.world = some r) :
      Begun (.found r) (s.note (.readLive (some r)))
  | notFound (hlive : v.surroundings.live s.world = none)
      (hfind : v.surroundings.find s.world = none) :
      Begun (.failed (.daemonNotFound v.surroundings.binaryName)) ((searching s).note (.find none))
  | refused (path : String) (world : σ) (reason : String)
      (hlive : v.surroundings.live s.world = none)
      (hfind : v.surroundings.find s.world = some path)
      (hlaunch : v.surroundings.launch s.world path = (world, some reason)) :
      Begun (.failed (.launch path reason))
        ((((searching s).note (.find (some path))).within world).note (.launch path (some reason)))
  | launched (path : String) (world : σ) (hlive : v.surroundings.live s.world = none)
      (hfind : v.surroundings.find s.world = some path)
      (hlaunch : v.surroundings.launch s.world path = (world, none)) :
      Begun (v.await s 1)
        ((((searching s).note (.find (some path))).within world).note (.launch path none))

private theorem begin_of_missing (hlive : v.surroundings.live s.world = none) :
    v.begin s =
      match v.find (searching s) with
      | (none, s) => (.failed (.daemonNotFound v.surroundings.binaryName), s)
      | (some path, s) =>
        match v.launch s path with
        | (some reason, s) => (.failed (.launch path reason), s)
        | (none, s) => (v.await s 1, s) := by
  unfold begin
  rw [readLive_eq, hlive]
  rfl

theorem begun : Begun v s (v.begin s).1 (v.begin s).2 := by
  cases hlive : v.surroundings.live s.world with
  | some r =>
    have hb : v.begin s = (.found r, s.note (.readLive (some r))) := by
      simp [begin, hlive]
    rw [hb]
    exact .found r hlive
  | none =>
    rw [begin_of_missing v s hlive, find_eq, searching_world]
    cases hfind : v.surroundings.find s.world with
    | none => exact .notFound hlive hfind
    | some path =>
      have hworld : ((searching s).note (.find (some path))).world = s.world := searching_world s
      dsimp only
      rw [launch, hworld]
      rcases hlaunch : v.surroundings.launch s.world path with ⟨world, failure⟩
      cases failure with
      | some reason => exact .refused path world reason hlive hfind hlaunch
      | none =>
        have hawait := v.await_congr (searching_now s) 1
        have hl := Begun.launched path world hlive hfind hlaunch
        rw [← hawait] at hl
        exact hl

/-- All that a look after a launch can come to. -/
inductive Looked (n : Nat) : Progress → Supervision σ → Prop where
  | found (r : Record) (hlive : v.surroundings.live s.world = some r) :
      Looked n (.found r) (s.note (.readLive (some r)))
  | missing (hlive : v.surroundings.live s.world = none) :
      Looked n (v.await s (n + 1)) (s.note (.readLive none))

theorem looked (n : Nat) : Looked v s n (v.look s n).1 (v.look s n).2 := by
  cases hlive : v.surroundings.live s.world with
  | some r =>
    have hl : v.look s n = (.found r, s.note (.readLive (some r))) := by
      simp [look, hlive]
    rw [hl]
    exact .found r hlive
  | none =>
    have hl : v.look s n = (v.await s (n + 1), s.note (.readLive none)) := by
      simp [look, hlive, await]
    rw [hl]
    exact .missing hlive

/-- The last that was done is a look that found `r`, whose daemon is alive. -/
structure Found (r : Record) : Prop where
  live : v.surroundings.live s.world = some r
  read : ∃ before, s.deeds = before ++ [.readLive (some r)]

/-- A search that finds a daemon ends with the look that found it. -/
theorem begin_found (r : Record) (h : (v.begin s).1 = .found r) : v.Found (v.begin s).2 r := by
  have hb := v.begun s
  generalize (v.begin s).1 = p, (v.begin s).2 = s' at hb h ⊢
  subst h
  generalize hp : Progress.found r = p at hb
  cases hb with
  | found r' hlive => cases hp; exact ⟨hlive, s.deeds, s.note_deeds _⟩
  | notFound => cases hp
  | refused => cases hp
  | launched => exact absurd hp.symm (v.await_ne_found s 1 r)

theorem look_found (n : Nat) (r : Record) (h : (v.look s n).1 = .found r) :
    v.Found (v.look s n).2 r := by
  have hl := v.looked s n
  generalize (v.look s n).1 = p, (v.look s n).2 = s' at hl h ⊢
  subst h
  generalize hp : Progress.found r = p at hl
  cases hl with
  | found r' hlive => cases hp; exact ⟨hlive, s.deeds, s.note_deeds _⟩
  | missing => exact absurd hp.symm (v.await_ne_found s (n + 1) r)

end Supervisor

end Vigil.Daemon
