import Vigil.Proofs.Daemon.Crew

/-! The daemon that was taken over last is the one that is watched, and the one whose crash is
reported. -/
namespace Vigil.Daemon

variable {σ : Type}

/-- The record that a deed takes over, if it does. -/
def Deed.adopts : Deed → Option Record
  | .tell (.ready r) | .tell (.restarted r) => some r
  | _ => none

def Deed.isCrash : Deed → Bool
  | .tell (.crashed _) => true
  | _ => false

/-- The record that was taken over last. -/
def adopted (deeds : List Deed) : Option Record :=
  deeds.foldl (fun last d => d.adopts.or last) none

@[simp] theorem adopted_concat (deeds : List Deed) (d : Deed) :
    adopted (deeds ++ [d]) = d.adopts.or (adopted deeds) := by
  simp [adopted, List.foldl_append]

/-- Every crash that was reported is one of the daemon taken over last. -/
def CrashesAdopted (deeds : List Deed) : Prop :=
  ∀ earlier pid later, deeds = earlier ++ .tell (.crashed pid) :: later →
    (adopted earlier).map (·.pid) = some pid

theorem crashesAdopted_iff {deeds : List Deed} : CrashesAdopted deeds ↔
    Along (fun earlier d => ∀ pid, d = .tell (.crashed pid) →
      (adopted earlier).map (·.pid) = some pid) deeds := by
  constructor
  · rintro h earlier d later heq pid rfl
    exact h earlier pid later heq
  · intro h earlier pid later heq
    exact h earlier _ later heq pid rfl

theorem CrashesAdopted.concat {deeds : List Deed} (h : CrashesAdopted deeds) {d : Deed}
    (hd : ∀ pid, d = .tell (.crashed pid) → (adopted deeds).map (·.pid) = some pid) :
    CrashesAdopted (deeds ++ [d]) :=
  crashesAdopted_iff.mpr ((crashesAdopted_iff.mp h).concat hd)

/-- The watched daemon was taken over last, and so was each that crashed when it did. -/
structure Adopting (s : Supervision σ) : Prop where
  watched : ∀ pid, s.session.watchedPid = some pid → (adopted s.deeds).map (·.pid) = some pid
  crashes : CrashesAdopted s.deeds

namespace Adopting

variable {v : Supervisor σ} {s s' : Supervision σ}

/-- A deed that takes nobody over and reports no crash. -/
theorem plain (h : Adopting s) {d : Deed} (hadopts : d.adopts = none)
    (hcrash : d.isCrash = false) (hdeeds : s'.deeds = s.deeds ++ [d])
    (hpid : ∀ pid, s'.session.watchedPid = some pid → s.session.watchedPid = some pid) :
    Adopting s' := by
  refine ⟨fun pid hw => ?_, ?_⟩
  · rw [hdeeds, adopted_concat, hadopts]
    exact h.watched pid (hpid pid hw)
  · rw [hdeeds]
    refine h.crashes.concat fun pid hd => ?_
    subst hd
    cases hcrash

theorem routine (hr : Routine v s s') (h : Adopting s) : Adopting s' := by
  cases hr with
  | probe pid =>
    exact h.plain rfl rfl (s.note_deeds _) (fun _ hw => hw)
  | readLive => exact h.plain rfl rfl (s.note_deeds _) (fun _ hw => hw)
  | readLeft => exact h.plain rfl rfl (s.note_deeds _) (fun _ hw => hw)
  | find => exact h.plain rfl rfl (s.note_deeds _) (fun _ hw => hw)
  | launch path =>
    exact h.plain rfl rfl
      ((s.within (v.surroundings.launch s.world path).1).note_deeds _) (fun _ hw => hw)
  | start => exact h.plain rfl rfl (s.write_deeds _) (fun _ hw => hw)
  | fail => exact h.plain rfl rfl (s.write_deeds _) (fun _ hw => hw)
  | postpone n e delay =>
    exact h.plain rfl rfl (s.tell_deeds _) (fun _ hw => hw)
  | abandon n =>
    have hw : Adopting (s.write {}) :=
      h.plain rfl rfl (s.write_deeds _) (fun _ hw => by cases hw)
    exact hw.plain rfl rfl (Supervision.tell_deeds _ _) (fun _ hw => hw)
  | shutdown hleft =>
    have hw : Adopting (s.write .down) :=
      h.plain rfl rfl (s.write_deeds _) (fun _ hw => by cases hw)
    exact hw.plain rfl rfl (Supervision.tell_deeds _ _) (fun _ hw => hw)
  | serve r n hr hn =>
    have hadopts : (Deed.tell n).adopts = some r := by
      rcases hn with rfl | rfl <;> rfl
    refine ⟨fun pid hw => ?_, ?_⟩
    · have hpid : some r.pid = some pid := hw
      rw [Supervision.tell_deeds, adopted_concat, hadopts]
      exact hpid
    · rw [Supervision.tell_deeds, Supervision.write_deeds]
      have hwrite : CrashesAdopted (s.deeds ++ [.write (.serving r)]) :=
        h.crashes.concat fun pid hd => by cases hd
      refine hwrite.concat fun pid hd => ?_
      rw [hd] at hadopts
      cases hadopts

theorem act (ha : Act v s s') (h : Adopting s) : Adopting s' := by
  cases ha with
  | routine hr => exact h.routine hr
  | crash pid left hpid =>
    have hw : Adopting (s.write { s.session with phase := .restarting, watchedPid := none }) :=
      h.plain rfl rfl (s.write_deeds _) (fun _ hw => by cases hw)
    refine ⟨fun _ hw => (by cases hw), ?_⟩
    rw [Supervision.reportCrash, Supervision.tell_deeds]
    refine hw.crashes.concat fun pid' hd => ?_
    cases hd
    rw [Supervision.write_deeds, adopted_concat]
    exact h.watched pid hpid

theorem acts (ha : Acts v s s') (h : Adopting s) : Adopting s' :=
  ha.invariant (fun _ _ hact h => h.act hact) h

theorem meet (h : Adopting s) (m : Moment σ) : Adopting (s.meet m) := ⟨h.watched, h.crashes⟩

/-- Nobody who shares a supervisor can break this. -/
theorem crew (v : Supervisor σ) (world : σ) (moves : List (Move σ)) :
    Adopting (Crew.run v (.fresh world) moves).state := by
  refine Crew.run_invariant (fun s m h => h.meet m) (fun s s' hact h => h.act hact) ?_ moves
  exact ⟨fun _ hw => (by cases hw), crashesAdopted_iff.mpr (along_nil _)⟩

end Adopting

end Vigil.Daemon
