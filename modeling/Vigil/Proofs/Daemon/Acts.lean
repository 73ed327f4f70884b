import Mathlib.Logic.Relation
import Vigil.Proofs.Daemon.Turns

/-! Every turn of a caller or a watch is a chain of a few acts, one of which is special: the report
of a crash. What all acts keep holds whatever order the turns come in. -/
namespace Vigil.Daemon

variable {σ : Type}

/-- The acts that turns are made of, but for the report of a crash. -/
inductive Routine (v : Supervisor σ) : Supervision σ → Supervision σ → Prop where
  | probe (s : Supervision σ) (pid : UInt32) : Routine v s (v.probe s pid).2
  | readLive (s : Supervision σ) : Routine v s (v.readLive s).2
  | readLeft (s : Supervision σ) : Routine v s (v.readLeft s).2
  | find (s : Supervision σ) : Routine v s (v.find s).2
  | launch (s : Supervision σ) (path : String) : Routine v s (v.launch s path).2
  | start (s : Supervision σ) (h : s.session.phase ≠ .restarting) :
      Routine v s (s.write { s.session with phase := .starting })
  | serve (s : Supervision σ) (r : Record) (n : Notice) (hr : v.Found s r)
      (hn : n = .ready r ∨ n = .restarted r) : Routine v s ((s.write (.serving r)).tell n)
  | fail (s : Supervision σ) : Routine v s (s.write { s.session with phase := .idle })
  | postpone (s : Supervision σ) (n : Nat) (e : StartError) (delay : Duration) :
      Routine v s (s.tell (.restartFailed n e delay))
  | abandon (s : Supervision σ) (n : Nat) : Routine v s ((s.write {}).tell (.abandoned n))
  | shutdown (s : Supervision σ) (hleft : v.surroundings.left s.world = none) :
      Routine v s ((s.write .down).tell .shutdown)

/-- What turns are made of. -/
inductive Act (v : Supervisor σ) : Supervision σ → Supervision σ → Prop where
  | routine {s s' : Supervision σ} (h : Routine v s s') : Act v s s'
  | crash (s : Supervision σ) (pid : UInt32) (left : Record)
      (hpid : s.session.watchedPid = some pid)
      (hdead : v.surroundings.isAlive s.world pid = false)
      (hleft : v.surroundings.left s.world = some left) : Act v s (s.reportCrash pid)

/-- A chain of acts without a crash. -/
def Routines (v : Supervisor σ) : Supervision σ → Supervision σ → Prop :=
  Relation.ReflTransGen (Routine v)

/-- A chain of acts. -/
def Acts (v : Supervisor σ) : Supervision σ → Supervision σ → Prop := Relation.ReflTransGen (Act v)

variable {v : Supervisor σ} {s s' s'' : Supervision σ}

namespace Acts

theorem of_routines (h : Routines v s s') : Acts v s s' := by
  have hle : Routine v ≤ Act v := fun _ _ => .routine
  exact Relation.ReflTransGen.mono hle _ _ h

/-- What every act keeps, a chain of them keeps. -/
theorem invariant {P : Supervision σ → Prop} (hact : ∀ s s', Act v s s' → P s → P s')
    (h : Acts v s s') (hs : P s) : P s' := by
  induction h with
  | refl => exact hs
  | tail _ ha ih => exact hact _ _ ha ih

/-- The clock is nobody's to set. -/
theorem now_eq (h : Acts v s s') : s'.now = s.now := by
  refine invariant (P := (·.now = s.now)) (fun t t' ha ht => ?_) h rfl
  have hsame : t'.now = t.now := by
    cases ha with
    | routine h => cases h <;> rfl
    | crash => rfl
  exact hsame.trans ht

end Acts

namespace Routines

theorem refl (v : Supervisor σ) (s : Supervision σ) : Routines v s s := Relation.ReflTransGen.refl

theorem tail (h : Routines v s s') (ha : Routine v s' s'') : Routines v s s'' :=
  Relation.ReflTransGen.tail h ha

theorem trans (h : Routines v s s') (h' : Routines v s' s'') : Routines v s s'' :=
  Relation.ReflTransGen.trans h h'

theorem searching (hlive : v.surroundings.live s.world = none) :
    Routines v s (Supervisor.searching s) := by
  have hread : Routines v s (s.note (.readLive none)) := by
    have hone := (refl v s).tail (.readLive s)
    rwa [Supervisor.readLive_eq, hlive] at hone
  unfold Supervisor.searching
  by_cases hphase : s.session.phase = .restarting
  · rw [if_pos hphase]
    exact hread
  · rw [if_neg hphase]
    exact hread.tail (.start _ hphase)

theorem begin (v : Supervisor σ) (s : Supervision σ) : Routines v s (v.begin s).2 := by
  have hb := v.begun s
  generalize (v.begin s).1 = p, (v.begin s).2 = s' at hb
  cases hb with
  | found r hlive =>
    have hone := (refl v s).tail (.readLive s)
    rwa [Supervisor.readLive_eq, hlive] at hone
  | notFound hlive hfind =>
    have hone := (searching hlive).tail (.find _)
    rwa [Supervisor.find_eq, Supervisor.searching_world, hfind] at hone
  | refused path world reason hlive hfind hlaunch =>
    have hone := ((searching hlive).tail (.find _)).tail (.launch _ path)
    simpa [hfind, hlaunch] using hone
  | launched path world hlive hfind hlaunch =>
    have hone := ((searching hlive).tail (.find _)).tail (.launch _ path)
    simpa [hfind, hlaunch] using hone

theorem look (v : Supervisor σ) (s : Supervision σ) (n : Nat) : Routines v s (v.look s n).2 := by
  have hl := v.looked s n
  have hone := (refl v s).tail (.readLive s)
  generalize (v.look s n).1 = p, (v.look s n).2 = s' at hl
  cases hl with
  | found r hlive => rwa [Supervisor.readLive_eq, hlive] at hone
  | missing hlive => rwa [Supervisor.readLive_eq, hlive] at hone

/-! ### Turns of a caller -/

theorem ensureFollow {p : Supervisor.Progress} (hp : ∀ r, p = .found r → v.Found s r) :
    Routines v s (Ensure.follow s p).2 := by
  cases p with
  | found r => exact (refl v s).tail (.serve s r _ (hp r rfl) (.inl rfl))
  | failed e => exact (refl v s).tail (.fail s)
  | polling look due => exact refl v s

theorem ensureTurn (v : Supervisor σ) (s : Supervision σ) (cancelled : Bool) (e : Ensure) :
    Routines v s (e.turn v s cancelled).2 := by
  have ht := e.turned v s cancelled
  generalize e.turn v s cancelled = p at ht ⊢
  cases ht with
  | called => exact (begin v s).trans (ensureFollow (Supervisor.begin_found v s))
  | done => exact refl v s
  | stopped => exact (refl v s).tail (.fail s)
  | early => exact refl v s
  | looked n => exact (look v s n).trans (ensureFollow (Supervisor.look_found v s n))

/-! ### Turns of a watch -/

theorem watchFollow {pid : UInt32} {k : Nat} {p : Supervisor.Progress}
    (hp : ∀ r, p = .found r → v.Found s r) : Routines v s (Watch.follow v s pid k p).2 := by
  cases p with
  | found r => exact (refl v s).tail (.serve s r _ (hp r rfl) (.inr rfl))
  | polling look due => exact refl v s
  | failed e =>
    unfold Watch.follow
    cases v.policies.restart.delayAfter (k + 1) with
    | none => exact (refl v s).tail (.abandon s _)
    | some delay => exact (refl v s).tail (.postpone s _ e delay)

theorem watchRestart (v : Supervisor σ) (s : Supervision σ) (pid : UInt32) (k : Nat) :
    Routines v s (Watch.restart v s pid k).2 :=
  (begin v s).trans (watchFollow (Supervisor.begin_found v s))

theorem probe {pid : UInt32} {alive : Bool} (h : v.surroundings.isAlive s.world pid = alive) :
    Routines v s (s.note (.probe pid alive)) := by
  have hone := (refl v s).tail (.probe s pid)
  rwa [Supervisor.probe_eq, h] at hone

theorem readLeft {found : Option Record} (h : v.surroundings.left s.world = found) :
    Routines v s (s.note (.readLeft found)) := by
  have hone := (refl v s).tail (.readLeft s)
  rwa [Supervisor.readLeft_eq, h] at hone

end Routines

/-- A turn of a watch is all routine, unless it reports a crash. -/
inductive Watch.Judged (v : Supervisor σ) (s : Supervision σ) (cancelled : Bool) (w : Watch) :
    Supervision σ → Prop where
  | quiet {s' : Supervision σ} (hno : ∀ pid left, ¬ w.Reports v s cancelled pid left)
      (h : Routines v s s') : Judged v s cancelled w s'
  | crash {s' : Supervision σ} (pid : UInt32) (left : Record)
      (hreports : w.Reports v s cancelled pid left)
      (h : Routines v ((s.sawCrash pid left).reportCrash pid) s') : Judged v s cancelled w s'

theorem Watch.judged (v : Supervisor σ) (s : Supervision σ) (cancelled : Bool) (w : Watch) :
    Judged v s cancelled w (w.turn v s cancelled).2 := by
  by_cases hr : ∃ pid left, w.Reports v s cancelled pid left
  · obtain ⟨pid, left, hr⟩ := hr
    rw [turn_of_reports v s hr]
    exact .crash pid left hr (.watchRestart v _ pid 0)
  · refine .quiet (fun pid left h => hr ⟨pid, left, h⟩) ?_
    have ht := w.turned v s cancelled
    generalize w.turn v s cancelled = p at ht ⊢
    cases ht with
    | called => exact .refl v s
    | ended => exact .refl v s
    | stopped => exact .refl v s
    | early => exact .refl v s
    | notRunning => exact .refl v s
    | alive hdue pid hpid halive => exact .probe halive
    | gone hdue pid hpid hdead hleft =>
      have hread : Routines v (s.note (.probe pid false)) _ := .readLeft hleft
      exact ((Routines.probe hdead).trans hread).tail (.shutdown _ hleft)
    | crashed h => exact absurd ⟨_, _, h⟩ hr
    | looked pid k n =>
      exact (Routines.look v s n).trans (.watchFollow (Supervisor.look_found v s n))
    | goneMeanwhile pid k hdue hleft => exact (Routines.readLeft hleft).tail (.shutdown _ hleft)
    | retried pid k hdue left hleft =>
      exact (Routines.readLeft hleft).trans (.watchRestart v _ pid k)

theorem Acts.watchTurn (v : Supervisor σ) (s : Supervision σ) (cancelled : Bool) (w : Watch) :
    Acts v s (w.turn v s cancelled).2 := by
  cases w.judged v s cancelled with
  | quiet hno h => exact of_routines h
  | crash pid left hreports h =>
    have hread : Routines v (s.note (.probe pid false)) _ := .readLeft hreports.left
    have hsaw : Acts v s (s.sawCrash pid left) :=
      of_routines ((Routines.probe hreports.dead).trans hread)
    have hcrash : Acts v s ((s.sawCrash pid left).reportCrash pid) :=
      hsaw.tail (.crash _ pid left hreports.watched hreports.dead hreports.left)
    exact Relation.ReflTransGen.trans hcrash (of_routines h)

end Vigil.Daemon
