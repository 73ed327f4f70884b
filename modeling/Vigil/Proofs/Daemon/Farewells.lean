import Vigil.Proofs.Daemon.Idle

/-! What a watch tells as it goes on: that it ends is the last it says, and it says so exactly when
it ends of itself. -/
namespace Vigil.Daemon

/-- The end that a notice tells, if it tells one. -/
def Notice.exit? : Notice → Option WatchExit
  | .abandoned _ => some .abandoned
  | .shutdown => some .shutdown
  | .ready _ | .crashed _ | .restarted _ | .restartFailed .. => none

namespace Watch

def exit? : Watch → Option WatchExit
  | .ended exit => some exit
  | .called | .ticking _ | .polling .. | .coolingDown .. => none

/-- Whether a watch waits for its next look at the daemon. -/
def rests : Watch → Bool
  | .called | .ticking _ => true
  | .polling .. | .coolingDown .. | .ended _ => false

variable {σ : Type} {v : Supervisor σ} {s s₀ s' : Supervision σ} {w w' : Watch} {cancelled : Bool}

/-- All that a turn of a watch can come to, by what it tells. A watch that goes on to rest knows
whom to watch, if it did before. -/
inductive Speaks (s : Supervision σ) (cancelled : Bool) : Watch → Watch → Supervision σ → Prop where
  | ended (exit : WatchExit) : Speaks s cancelled (.ended exit) (.ended exit) s
  | stopped {w : Watch} (hw : w.exit? = none) (hc : cancelled = true) :
      Speaks s cancelled w (.ended .cancelled) s
  | notRunning {w : Watch} (hw : w.rests = true) (hpid : s.session.watchedPid = none) :
      Speaks s cancelled w (.ended .notRunning) s
  | goesOn {w w' : Watch} {s' : Supervision σ} (hw : w.exit? = none) (hw' : w'.exit? = none)
      (told : List (Nat × Notice)) (htold : s'.notices = s.notices ++ told)
      (hplain : ∀ n ∈ told, n.2.exit? = none)
      (hrests : w'.rests = true → s'.session.watchedPid ≠ none ∨
        w.rests = true ∧ s'.session.watchedPid = s.session.watchedPid) :
      Speaks s cancelled w w' s'
  | farewell {w : Watch} {exit : WatchExit} {s' : Supervision σ} (hw : w.exit? = none)
      (told : List (Nat × Notice)) (last : Nat × Notice)
      (htold : s'.notices = s.notices ++ (told ++ [last])) (hplain : ∀ n ∈ told, n.2.exit? = none)
      (hlast : last.2.exit? = some exit) : Speaks s cancelled w (.ended exit) s'

theorem exit?_of_due {due : Nat} (hdue : w.due? = some due) : w.exit? = none := by
  cases w with
  | called | ended => cases hdue
  | ticking | polling | coolingDown => rfl

theorem follow_speaks (hw : w.exit? = none) (told : List (Nat × Notice))
    (htold : s.notices = s₀.notices ++ told) (hplain : ∀ n ∈ told, n.2.exit? = none) (pid : UInt32)
    (k : Nat) (p : Supervisor.Progress) :
    Speaks s₀ cancelled w (follow v s pid k p).1 (follow v s pid k p).2 := by
  have hmore {n : Nat × Notice} (hn : n.2.exit? = none) :
      ∀ n' ∈ told ++ [n], n'.2.exit? = none := by
    intro n' hmem
    rcases List.mem_append.mp hmem with hold | hnew
    · exact hplain n' hold
    · rw [List.mem_singleton.mp hnew]
      exact hn
  cases p with
  | found r =>
    refine .goesOn hw rfl (told ++ [(s.now, .restarted r)]) ?_ (hmore rfl) fun _ => .inl ?_
    · simp [follow, rest, htold]
    · simp [follow, rest, Session.serving]
  | polling look due => exact .goesOn hw rfl told htold hplain (by simp [follow, rests])
  | failed e =>
    unfold follow
    cases v.policies.restart.delayAfter (k + 1) with
    | none =>
      refine .farewell hw told (s.now, .abandoned (k + 1)) ?_ hplain rfl
      simp [htold]
    | some delay =>
      refine .goesOn hw rfl (told ++ [(s.now, .restartFailed (k + 1) e delay)]) ?_ (hmore rfl) ?_
      · simp [htold]
      · simp [rests]

theorem restart_speaks (hw : w.exit? = none) (told : List (Nat × Notice))
    (htold : s.notices = s₀.notices ++ told) (hplain : ∀ n ∈ told, n.2.exit? = none) (pid : UInt32)
    (k : Nat) : Speaks s₀ cancelled w (restart v s pid k).1 (restart v s pid k).2 :=
  follow_speaks hw told ((v.begin_quiet s).1.trans htold) hplain pid k _

theorem shutdown_speaks (hw : w.exit? = none) (hsame : s.notices = s₀.notices) :
    Speaks s₀ cancelled w (shutdown s).1 (shutdown s).2 := by
  refine .farewell hw [] (s.now, .shutdown) ?_ nofun rfl
  simp [shutdown, hsame]

theorem speaks (v : Supervisor σ) (s : Supervision σ) (cancelled : Bool) (w : Watch) :
    Speaks s cancelled w (w.turn v s cancelled).1 (w.turn v s cancelled).2 := by
  have ht := w.turned v s cancelled
  generalize w.turn v s cancelled = p at ht ⊢
  cases ht with
  | called => exact .goesOn rfl rfl [] (List.append_nil _).symm nofun fun _ => .inr ⟨rfl, rfl⟩
  | ended _ exit => exact .ended exit
  | stopped hdue => exact .stopped (exit?_of_due hdue) rfl
  | early hdue =>
    have hw := exit?_of_due hdue
    exact .goesOn hw hw [] (List.append_nil _).symm nofun fun hrests => .inr ⟨hrests, rfl⟩
  | notRunning hdue hpid => exact .notRunning rfl hpid
  | alive hdue pid hpid =>
    refine .goesOn rfl rfl [] ?_ nofun fun _ => .inr ⟨rfl, rfl⟩
    simp [rest]
  | gone => exact shutdown_speaks rfl (by simp)
  | @crashed _ pid left h =>
    obtain ⟨due, rfl, -⟩ := h.ticking
    refine restart_speaks rfl [(s.now, .crashed pid)] ?_ ?_ pid 0
    · simp [Supervision.sawCrash, Supervision.reportCrash]
    · simp [Notice.exit?]
  | looked pid k look =>
    have hquiet := (v.look_quiet s look).1
    exact follow_speaks rfl [] (by simp [hquiet]) nofun pid k _
  | goneMeanwhile => exact shutdown_speaks rfl (by simp)
  | retried pid k hdue left =>
    exact restart_speaks rfl [] (by simp) nofun pid k

end Watch

namespace Ensure

variable {σ : Type}

/-- A call tells at most that a daemon is ready, and then there is one to watch. -/
theorem turn_speaks (v : Supervisor σ) (s : Supervision σ) (cancelled : Bool) (e : Ensure) :
    ∃ told : List (Nat × Notice),
      (e.turn v s cancelled).2.notices = s.notices ++ told ∧ (∀ n ∈ told, n.2.exit? = none) ∧
        ∀ at_ d, e.isDone = false → (e.turn v s cancelled).1 = .done at_ (.ok d) →
          (e.turn v s cancelled).2.session.watchedPid = some d.pid := by
  have hfollow {s' : Supervision σ} (hsame : s'.notices = s.notices) (p : Supervisor.Progress) :
      ∃ told : List (Nat × Notice),
        (follow s' p).2.notices = s.notices ++ told ∧ (∀ n ∈ told, n.2.exit? = none) ∧
          ∀ at_ d, (follow s' p).1 = .done at_ (.ok d) →
            (follow s' p).2.session.watchedPid = some d.pid := by
    cases p with
    | found r =>
      refine ⟨[(s'.now, .ready r)], by simp [follow, hsame], by simp [Notice.exit?], ?_⟩
      intro at_ d hdone
      obtain ⟨-, rfl⟩ : s'.now = at_ ∧ r = d := by simpa [follow] using hdone
      rfl
    | failed | polling =>
      exact ⟨[], by simp [follow, hsame], List.forall_mem_nil _, by simp [follow]⟩
  have ht := e.turned v s cancelled
  generalize e.turn v s cancelled = p at ht ⊢
  cases ht with
  | called =>
    obtain ⟨told, htold, hplain, hserves⟩ := hfollow (v.begin_quiet s).1 (v.begin s).1
    exact ⟨told, htold, hplain, fun at_ d _ => hserves at_ d⟩
  | done => exact ⟨[], (List.append_nil _).symm, List.forall_mem_nil _, by simp [isDone]⟩
  | stopped =>
    obtain ⟨told, htold, hplain, hserves⟩ := hfollow rfl (.failed .cancelled)
    exact ⟨told, htold, hplain, fun at_ d _ => hserves at_ d⟩
  | early => exact ⟨[], (List.append_nil _).symm, List.forall_mem_nil _, by simp⟩
  | looked look =>
    obtain ⟨told, htold, hplain, hserves⟩ := hfollow (v.look_quiet s look).1 (v.look s look).1
    exact ⟨told, htold, hplain, fun at_ d _ => hserves at_ d⟩

end Ensure

end Vigil.Daemon
