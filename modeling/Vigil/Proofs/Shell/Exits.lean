import Vigil.Proofs.Shell.Moves
import Vigil.Rehearsal.World

/-! How a run that nobody interrupts ends: as the watch of its daemon did. The mailbox may lose
notices, but never the last one, and that is where the watch tells its end. -/
namespace Vigil.Shell

namespace Mailbox

variable {α : Type} {m m' : Mailbox α}

/-- Whatever is lost, what came last is there. -/
theorem post_messages (m : Mailbox α) (a : α) :
    ∃ front, (m.post a).messages = front ++ [a] ∧ ∀ b ∈ front, b ∈ m.messages := by
  unfold post
  split
  · exact ⟨_, rfl, fun b => List.mem_of_mem_drop⟩
  · exact ⟨_, rfl, fun _ hb => hb⟩

theorem mem_post {a b : α} (h : b ∈ (m.post a).messages) : b ∈ m.messages ∨ b = a := by
  obtain ⟨front, hmessages, hfront⟩ := m.post_messages a
  rw [hmessages] at h
  rcases List.mem_append.mp h with hold | hnew
  · exact .inl (hfront b hold)
  · exact .inr (List.mem_singleton.mp hnew)

theorem mem_posts {l : List α} {b : α} (h : b ∈ (l.foldl post m).messages) :
    b ∈ m.messages ∨ b ∈ l := by
  induction l generalizing m with
  | nil => exact .inl h
  | cons a rest ih =>
    rcases ih h with hold | hrest
    · rcases mem_post hold with hm | rfl
      · exact .inl hm
      · exact .inr List.mem_cons_self
    · exact .inr (List.mem_cons_of_mem _ hrest)

theorem take?_missed {n : Nat} (h : m.take? = some (.missed n, m')) : m' = { m with missed := 0 } := by
  unfold take? at h
  split at h
  · simp only [Option.some.injEq, Prod.mk.injEq] at h
    exact h.2.symm
  · cases hm : m.messages with
    | nil => simp [hm] at h
    | cons a rest => simp [hm] at h

theorem take?_message {a : α} (h : m.take? = some (.message a, m')) :
    m.missed = 0 ∧ m.messages = a :: m'.messages ∧ m'.missed = 0 := by
  unfold take? at h
  split at h
  · simp at h
  · rename_i hmissed
    have hzero : m.missed = 0 := by omega
    cases hm : m.messages with
    | nil => simp [hm] at h
    | cons b rest =>
      obtain ⟨rfl, rfl⟩ : b = a ∧ { m with messages := rest } = m' := by simpa [hm] using h
      exact ⟨hzero, rfl, hzero⟩

end Mailbox

/-- The end of the watch that an end of a run goes back to; an interruption has none. -/
def Exit.cause? : Exit → Option Daemon.WatchExit
  | .daemonShutdown => some .shutdown
  | .restartAbandoned => some .abandoned
  | .interrupted => none

/-- Notices that tell an end with the last of them, and with no other. -/
def Ends (exit : Daemon.WatchExit) (notices : List Daemon.Notice) : Prop :=
  ∃ front last, notices = front ++ [last] ∧ (∀ n ∈ front, n.exit? = none) ∧ last.exit? = some exit

/-- The notices that wait tell of the end if there is one, and are to come to it. -/
def Awaits (w : Daemon.Watch) (notices : List Daemon.Notice) : Prop :=
  match w.exit? with
  | some exit => Ends exit notices
  | none => ∀ n ∈ notices, n.exit? = none

theorem Ends.tail {exit : Daemon.WatchExit} {n : Daemon.Notice} {notices : List Daemon.Notice}
    (h : Ends exit (n :: notices)) (hn : n.exit? = none) : Ends exit notices := by
  obtain ⟨front, last, heq, hfront, hlast⟩ := h
  cases front with
  | nil =>
    obtain ⟨rfl, -⟩ : n = last ∧ notices = [] := by simpa using heq
    exact nomatch hn.symm.trans hlast
  | cons n' front =>
    obtain ⟨rfl, rfl⟩ : n = n' ∧ notices = front ++ [last] := by simpa using heq
    exact ⟨front, last, rfl, fun n hn => hfront n (List.mem_cons_of_mem _ hn), hlast⟩

theorem Ends.head {exit exit' : Daemon.WatchExit} {n : Daemon.Notice}
    {notices : List Daemon.Notice} (h : Ends exit (n :: notices)) (hn : n.exit? = some exit') :
    exit' = exit := by
  obtain ⟨front, last, heq, hfront, hlast⟩ := h
  cases front with
  | nil =>
    obtain ⟨rfl, -⟩ : n = last ∧ notices = [] := by simpa using heq
    exact Option.some.inj (hn.symm.trans hlast)
  | cons n' front =>
    obtain ⟨rfl, -⟩ : n = n' ∧ notices = front ++ [last] := by simpa using heq
    exact nomatch hn.symm.trans (hfront n List.mem_cons_self)

namespace Awaits

variable {w : Daemon.Watch} {n : Daemon.Notice} {notices : List Daemon.Notice}

theorem tail (h : Awaits w (n :: notices)) (hn : n.exit? = none) : Awaits w notices := by
  unfold Awaits at h ⊢
  cases hw : w.exit? with
  | none =>
    rw [hw] at h
    exact fun n hn => h n (List.mem_cons_of_mem _ hn)
  | some exit =>
    rw [hw] at h
    exact h.tail hn

/-- Where the end is told, the watch has ended so. -/
theorem head {exit : Daemon.WatchExit} (h : Awaits w (n :: notices)) (hn : n.exit? = some exit) :
    w = .ended exit := by
  unfold Awaits at h
  cases w with
  | ended exit' =>
    have hends : Ends exit' (n :: notices) := h
    rw [hends.head hn]
  | called | ticking | polling | coolingDown => exact nomatch hn.symm.trans (h n List.mem_cons_self)

end Awaits

namespace Run

variable {σ : Type} {r r' : Run σ}

/-- What a supervisor has told is posted. -/
theorem withSupervision_notices {s : Daemon.Supervision σ} {told : List (Nat × Daemon.Notice)}
    (h : s.notices = r.supervision.notices ++ told) :
    (r.withSupervision s).notices = (told.map Prod.snd).foldl Mailbox.post r.notices := by
  simp [withSupervision, h, List.foldl_map]

/-- A run and the watch of its daemon go together: a watch that rests has someone to watch, what the
run has yet to look at tells how the watch ended, and an end that is decided is that of the watch or
an interruption. -/
structure Accords (r : Run σ) : Prop where
  knows : ∀ w, r.watch = some w →
    w ≠ .ended .notRunning ∧ (w.rests = true → r.supervision.session.watchedPid ≠ none)
  ensuring : ∀ e, r.stage = .ensuring e → r.watch = none ∧ r.watchCancelled = false ∧
    ∀ n ∈ r.notices.messages, n.exit? = none
  looping : r.stage = .looping → r.watchCancelled = false ∧
    ∃ w, r.watch = some w ∧ Awaits w r.notices.messages
  decided : ∀ exit, r.stage.exit? = some exit →
    match exit.cause? with
    | some cause => r.watch = some (.ended cause)
    | none => r.interrupted = true

namespace Accords

theorem aside (h : Accords r) (ha : Aside r r') : Accords r' := by
  obtain ⟨_, _, _, _, _, rfl, -⟩ := ha
  exact ⟨h.knows, h.ensuring, h.looping, h.decided⟩

theorem interrupt (h : Accords r) : Accords { r with interrupted := true } := by
  refine ⟨h.knows, h.ensuring, h.looping, fun exit hexit => ?_⟩
  have hdecided := h.decided exit hexit
  cases exit with
  | daemonShutdown | restartAbandoned => exact hdecided
  | interrupted => rfl

/-- A run in its loop goes on in it with what it has taken out of the mailbox. -/
theorem take (h : Accords r) (hstage : r.stage = .looping) {notices : Mailbox Daemon.Notice}
    (hawaits : ∀ w, r.watch = some w → Awaits w r.notices.messages → Awaits w notices.messages) :
    Accords { r with notices } := by
  obtain ⟨hgoes, w, hw, hold⟩ := h.looping hstage
  refine ⟨h.knows, fun e he => ?_, fun _ => ⟨hgoes, w, hw, hawaits w hw hold⟩, h.decided⟩
  exact nomatch hstage.symm.trans he

theorem withReconnect (h : Accords r) (c : Link.Reconnect) : Accords (r.withReconnect c) :=
  ⟨h.knows, h.ensuring, h.looping, h.decided⟩

theorem goOn (h : Accords r) {w w' : Daemon.Watch} {s : Daemon.Supervision σ}
    (hw : r.watch = some w)
    (hknows : w' ≠ .ended .notRunning ∧ (w'.rests = true → s.session.watchedPid ≠ none))
    (hawaits : r.watchCancelled = false → Awaits w r.notices.messages →
      Awaits w' (r.withSupervision s).notices.messages)
    (hended : ∀ cause, w = .ended cause → w' = .ended cause) :
    Accords { r.withSupervision s with watch := some w' } := by
  refine ⟨fun w'' hw'' => ?_, fun e he => ?_, fun hstage => ?_, fun exit hexit => ?_⟩
  · obtain rfl : w' = w'' := Option.some.inj hw''
    exact hknows
  · exact nomatch hw.symm.trans (h.ensuring e he).1
  · obtain ⟨hgoes, w₀, hw₀, hold⟩ := h.looping hstage
    obtain rfl : w = w₀ := Option.some.inj (hw.symm.trans hw₀)
    exact ⟨hgoes, w', rfl, hawaits hgoes hold⟩
  · have hdecided := h.decided exit hexit
    cases hcause : exit.cause? with
    | none =>
      rw [hcause] at hdecided
      exact hdecided
    | some cause =>
      rw [hcause] at hdecided
      have hw' := hended cause (Option.some.inj (hw.symm.trans hdecided))
      rw [hw']

theorem plain_posts {m : Mailbox Daemon.Notice} (hold : ∀ n ∈ m.messages, n.exit? = none)
    {told : List (Nat × Daemon.Notice)} (hplain : ∀ n ∈ told, n.2.exit? = none) :
    ∀ n ∈ ((told.map Prod.snd).foldl Mailbox.post m).messages, n.exit? = none := by
  intro n hn
  rcases Mailbox.mem_posts hn with hmem | hmem
  · exact hold n hmem
  · obtain ⟨p, hp, rfl⟩ := List.mem_map.mp hmem
    exact hplain p hp

theorem ends_posts {m : Mailbox Daemon.Notice} (hold : ∀ n ∈ m.messages, n.exit? = none)
    {told : List (Nat × Daemon.Notice)} (hplain : ∀ n ∈ told, n.2.exit? = none)
    {last : Nat × Daemon.Notice} {exit : Daemon.WatchExit} (hlast : last.2.exit? = some exit) :
    Ends exit (((told ++ [last]).map Prod.snd).foldl Mailbox.post m).messages := by
  have hposted := plain_posts hold hplain
  rw [List.map_append, List.foldl_append]
  obtain ⟨front, heq, hfront⟩ :=
    Mailbox.post_messages ((told.map Prod.snd).foldl Mailbox.post m) last.2
  exact ⟨front, last.2, heq, fun n hn => hposted n (hfront n hn), hlast⟩

theorem watched (h : Accords r) {w w' : Daemon.Watch} {s : Daemon.Supervision σ}
    (hw : r.watch = some w) {cancelled : Bool} (hc : cancelled = true → r.watchCancelled = true)
    (hturn : w.turn r.supervisor r.supervision cancelled = (w', s)) :
    Accords { r.withSupervision s with watch := some w' } := by
  obtain ⟨hne, hpid⟩ := h.knows w hw
  have hspeaks := w.speaks r.supervisor r.supervision cancelled
  rw [hturn] at hspeaks
  have hopen (hexit : w.exit? = none) : ∀ cause, w = .ended cause → w' = .ended cause := by
    rintro cause rfl
    cases hexit
  have hplain (hexit : w.exit? = none) (hold : Awaits w r.notices.messages) :
      ∀ n ∈ r.notices.messages, n.exit? = none := by
    unfold Awaits at hold
    rwa [hexit] at hold
  cases hspeaks with
  | ended exit =>
    refine h.goOn hw ⟨hne, nofun⟩ (fun _ hold => ?_) fun _ => id
    rw [withSupervision_notices (List.append_nil _).symm]
    exact hold
  | stopped hexit hcancelled =>
    refine h.goOn hw ⟨nofun, nofun⟩ (fun hgoes => ?_) (hopen hexit)
    exact nomatch hgoes.symm.trans (hc hcancelled)
  | notRunning hrests hnone => exact absurd hnone (hpid hrests)
  | goesOn hexit hexit' told htold hrest hrests =>
    refine h.goOn hw ⟨?_, fun hrests' => ?_⟩ (fun _ hold => ?_) (hopen hexit)
    · rintro rfl
      cases hexit'
    · rcases hrests hrests' with hknown | ⟨hbefore, hsame⟩
      · exact hknown
      · rw [hsame]
        exact hpid hbefore
    · rw [withSupervision_notices htold]
      unfold Awaits
      rw [hexit']
      exact plain_posts (hplain hexit hold) hrest
  | @farewell _ exit _ hexit told last htold hrest hlast =>
    refine h.goOn hw ⟨?_, nofun⟩ (fun _ hold => ?_) (hopen hexit)
    · rintro ⟨⟩
      cases hn : last.2 <;> simp [hn, Daemon.Notice.exit?] at hlast
    · rw [withSupervision_notices htold]
      exact ends_posts (hplain hexit hold) hrest hlast

theorem ensure (h : Accords r) {e e' : Daemon.Ensure} {s : Daemon.Supervision σ}
    (hstage : r.stage = .ensuring e)
    (hturn : e.turn r.supervisor r.supervision false = (e', s)) :
    r.watch = none ∧ r.watchCancelled = false ∧
      (∀ n ∈ (r.withSupervision s).notices.messages, n.exit? = none) ∧
      ∀ {at_ : Nat} {d : Record}, e.isDone = false → e' = .done at_ (.ok d) →
        s.session.watchedPid = some d.pid := by
  obtain ⟨hnone, hgoes, hold⟩ := h.ensuring e hstage
  obtain ⟨told, htold, hplain, hserves⟩ := e.turn_speaks r.supervisor r.supervision false
  rw [hturn] at htold hserves
  refine ⟨hnone, hgoes, ?_, fun hopen hdone => hserves _ _ hopen hdone⟩
  rw [withSupervision_notices htold]
  exact plain_posts hold hplain

theorem stepped (h : Accords r) (hs : Stepped r r') : Accords r' := by
  cases hs with
  | same => exact h
  | world | passed | shown => exact ⟨h.knows, h.ensuring, h.looping, h.decided⟩
  | @waits e e' s hstage hturn =>
    obtain ⟨hnone, hgoes, hposted, -⟩ := h.ensure hstage hturn
    refine ⟨fun w hw => ?_, fun _ _ => ⟨hnone, hgoes, hposted⟩, nofun, nofun⟩
    exact nomatch hnone.symm.trans hw
  | fails hstage hturn =>
    obtain ⟨hnone, -, -, -⟩ := h.ensure hstage hturn
    refine ⟨fun w hw => ?_, nofun, nofun, nofun⟩
    exact nomatch hnone.symm.trans hw
  | serves hstage hopen hturn =>
    obtain ⟨-, hgoes, hposted, hserves⟩ := h.ensure hstage hturn
    refine ⟨fun w hw => ?_, nofun, fun _ => ⟨hgoes, .called, rfl, hposted⟩, nofun⟩
    obtain rfl : .called = w := Option.some.inj hw
    refine ⟨nofun, fun _ => ?_⟩
    have hpid := hserves hopen rfl
    exact fun hnone => nomatch hpid.symm.trans hnone
  | interruption hstage hi =>
    refine ⟨h.knows, nofun, nofun, fun exit hexit => ?_⟩
    obtain rfl : .interrupted = exit := Option.some.inj hexit
    exact hi
  | lagged hstage ht =>
    refine h.take hstage fun w _ hold => ?_
    rw [Mailbox.take?_missed ht]
    exact hold
  | noticed hstage ht hn =>
    refine (h.take hstage fun w _ hold => ?_).withReconnect _
    rw [(Mailbox.take?_message ht).2.1] at hold
    exact hold.tail hn
  | abandoned hstage ht | shutdown hstage ht =>
    obtain ⟨-, w, hw, hold⟩ := h.looping hstage
    rw [(Mailbox.take?_message ht).2.1] at hold
    obtain rfl := hold.head rfl
    refine ⟨h.knows, nofun, nofun, fun exit hexit => ?_⟩
    obtain rfl := Option.some.inj hexit
    exact hw
  | delayed hstage | exits hstage =>
    refine ⟨h.knows, nofun, nofun, fun exit hexit => h.decided exit ?_⟩
    rw [hstage]
    exact hexit
  | watched hw hc hturn => exact h.watched hw hc hturn
  | linked => exact h.withReconnect _

end Accords

theorem accords_run (v : Daemon.Supervisor σ) (projects : List String) (exitDelay : Nat)
    (supervision : Daemon.Supervision σ) (interval : Nat) (queue : Queue)
    (moves : List (Move σ)) :
    Accords (run (fresh v projects exitDelay supervision interval queue) moves) := by
  have hfresh : Accords (fresh v projects exitDelay supervision interval queue) := by
    refine ⟨nofun, fun _ _ => ⟨rfl, rfl, ?_⟩, nofun, nofun⟩
    exact nofun
  exact invariant (fun _ _ h => h.aside) (fun _ _ h => h.stepped) (fun _ h => h.interrupt) hfresh
    moves

/-! ### Coming to the end -/

/-- A notice that tells an end decides how the run ends. -/
theorem onNotice_exit (r : Run σ) {n : Daemon.Notice} {cause : Daemon.WatchExit}
    (hn : n.exit? = some cause) :
    ∃ exit : Exit, exit.cause? = some cause ∧ (r.onNotice n).stage.exit? = some exit := by
  cases n with
  | ready | crashed | restarted | restartFailed => cases hn
  | abandoned k => exact ⟨.restartAbandoned, hn, rfl⟩
  | shutdown => exact ⟨.daemonShutdown, hn, rfl⟩

theorem step_notice (hstage : r.stage = .looping) {n : Daemon.Notice}
    {notices : Mailbox Daemon.Notice} (ht : r.notices.take? = some (.message n, notices)) :
    r.step (.main .notice) = { r with notices }.onNotice n := by
  simp only [step, mainTurnOn, hstage, attendTo, ht]

/-- As many looks at notices as come before the end, and one more, decide it. -/
theorem exit_of_notices {front rest : List Daemon.Notice} {last : Daemon.Notice}
    {cause : Daemon.WatchExit} (hstage : r.stage = .looping) (hmissed : r.notices.missed = 0)
    (hmessages : r.notices.messages = front ++ last :: rest) (hfront : ∀ n ∈ front, n.exit? = none)
    (hlast : last.exit? = some cause) :
    ∃ exit : Exit, exit.cause? = some cause ∧
      (r.run (List.replicate (front.length + 1) (.main .notice))).stage.exit? = some exit := by
  induction front generalizing r with
  | nil =>
    have ht : r.notices.take? = some (.message last, { r.notices with messages := rest }) := by
      simp [Mailbox.take?, hmissed, hmessages]
    have hstep := step_notice hstage ht
    obtain ⟨exit, hexit, hdecided⟩ :=
      onNotice_exit { r with notices := { r.notices with messages := rest } } hlast
    exact ⟨exit, hexit, by rw [← hdecided, ← hstep]; rfl⟩
  | cons n front ih =>
    have ht : r.notices.take? =
        some (.message n, { r.notices with messages := front ++ last :: rest }) := by
      simp [Mailbox.take?, hmissed, hmessages]
    have hstep := step_notice hstage ht
    obtain ⟨c, -, _, _, _, _, _, heq, -⟩ := onNotice_plain
      { r with notices := { r.notices with messages := front ++ last :: rest } }
      (hfront n List.mem_cons_self)
    rw [heq] at hstep
    have hrest := ih (r := r.step (.main .notice)) (by rw [hstep]; exact hstage)
      (by rw [hstep]; exact hmissed) (by rw [hstep]; rfl)
      fun n' hn' => hfront n' (List.mem_cons_of_mem n hn')
    exact hrest

/-- A run in its loop whose watch has ended comes to the end it tells, by looking at notices. -/
theorem Accords.comes_to_end (h : Accords r) (hstage : r.stage = .looping)
    {cause : Daemon.WatchExit} (hw : r.watch = some (.ended cause)) :
    ∃ exit : Exit, exit.cause? = some cause ∧
      (r.run (List.replicate (r.notices.messages.length + 1) (.main .notice))).stage.exit? =
        some exit := by
  obtain ⟨-, w, hw', hawaits⟩ := h.looping hstage
  obtain rfl : .ended cause = w := Option.some.inj (hw.symm.trans hw')
  obtain ⟨front, last, hmessages, hfront, hlast⟩ : Ends cause r.notices.messages := hawaits
  have hlength : r.notices.messages.length = front.length + 1 := by simp [hmessages]
  rw [hlength]
  by_cases hmissed : r.notices.missed = 0
  · obtain ⟨exit, hexit, hdecided⟩ := exit_of_notices hstage hmissed hmessages hfront hlast
    refine ⟨exit, hexit, ?_⟩
    rw [List.replicate_succ', run, List.foldl_append]
    exact (decided_run hdecided [.main .notice]).1
  · -- What was missed comes first, and then the mailbox is as before.
    have ht : r.notices.take? = some (.missed r.notices.missed, { r.notices with missed := 0 }) := by
      have hpos : 0 < r.notices.missed := by omega
      simp [Mailbox.take?, hpos]
    have hstep : r.step (.main .notice) = { r with notices := { r.notices with missed := 0 } } := by
      simp only [step, mainTurnOn, hstage, attendTo, ht]
    have hmessages' : (r.step (.main .notice)).notices.messages = front ++ [last] := by
      rw [hstep]
      exact hmessages
    exact exit_of_notices (r := r.step (.main .notice)) (by rw [hstep]; exact hstage)
      (by rw [hstep]) hmessages' hfront hlast

/-- In every order of the tasks and however many notices come between two looks at the mailbox: no
watch of a run ends for want of someone to watch, and a run that nobody interrupts ends by a
shutdown exactly if the watch ended so, as given up exactly if the watch gave up, and in no other
way. Where the watch has ended and the run does not know, what waits in the mailbox leads it
there. -/
theorem exits_as_watch (v : Daemon.Supervisor σ) (projects : List String) (exitDelay : Nat)
    (supervision : Daemon.Supervision σ) (interval : Nat) (queue : Queue)
    (moves : List (Move σ)) :
    let r := run (fresh v projects exitDelay supervision interval queue) moves
    r.watch ≠ some (.ended .notRunning) ∧
    (.interrupt ∉ moves →
      (∀ at_ exit, r.stage = .exited at_ (.ok exit) → exit ≠ .interrupted ∧
        (exit = .daemonShutdown ↔ r.watch = some (.ended .shutdown)) ∧
        (exit = .restartAbandoned ↔ r.watch = some (.ended .abandoned))) ∧
      ∀ cause, r.stage = .looping → r.watch = some (.ended cause) →
        ∃ exit : Exit, exit.cause? = some cause ∧
          (r.run (List.replicate (r.notices.messages.length + 1) (.main .notice))).stage.exit? =
            some exit) := by
  intro r
  have h : Accords r := accords_run v projects exitDelay supervision interval queue moves
  refine ⟨fun hw => (h.knows _ hw).1 rfl, fun hmoves => ⟨fun at_ exit hstage => ?_,
    fun cause hstage hw => h.comes_to_end hstage hw⟩⟩
  have hquiet : r.interrupted = false := interrupted_run hmoves
  have hdecided := h.decided exit (by rw [hstage]; rfl)
  cases exit with
  | daemonShutdown =>
    have hw : r.watch = some (.ended .shutdown) := hdecided
    simp [hw]
  | restartAbandoned =>
    have hw : r.watch = some (.ended .abandoned) := hdecided
    simp [hw]
  | interrupted => exact nomatch hquiet.symm.trans hdecided

/-- A run with a daemon 100 that is there from the first. Restarts do not wait, and the 33rd that
fails is the last. -/
def impatient : Run Rehearsal.World :=
  fresh ⟨Rehearsal.World.surroundings,
      { restart := { cooldown := .ofSecs 0, maxAttempts := some 33 } }⟩ ["p"] 5
    { world := { record := some { port := 1, pid := 100 }, alive := [100] } } 3 (.ofLimit 8)

/-- The daemon crashes and there is nothing to launch; the watch goes on to its end while nobody
looks at its notices. -/
def givingUp : List (Move Rehearsal.World) :=
  [.main .notice, .loop, .watch false,
    .world { record := some { port := 1, pid := 100 }, binary := none }, .pass 2_000_000_000] ++
    List.replicate 33 (.watch false)

/-- The main task looks at the notices that are left, and the other tasks end. -/
def catchingUp : List (Move Rehearsal.World) :=
  List.replicate 33 (.main .notice) ++ [.loop, .acquired none, .main .notice]

set_option maxRecDepth 4000 in
theorem givingUp_exits :
    let r := run impatient givingUp
    let r' := run impatient (givingUp ++ catchingUp)
    (.interrupt ∉ givingUp ++ catchingUp ∧ r.stage = .looping ∧ 0 < r.notices.missed ∧
      r.watch = some (.ended .abandoned)) ∧
    (∃ exit : Exit, exit.cause? = some .abandoned ∧
      (r.run (List.replicate 33 (.main .notice))).stage.exit? = some exit) ∧
    (r'.stage = .exited 2_000_000_000 (.ok .restartAbandoned) ∧
      r'.watch = some (.ended .abandoned) ∧ r'.watch ≠ some (.ended .notRunning)) := by
  intro r r'
  have hquiet : .interrupt ∉ givingUp := by simp [givingUp]
  have hquiet' : .interrupt ∉ givingUp ++ catchingUp := by simp [givingUp, catchingUp]
  have hstage : r.stage = .looping := rfl
  have hw : r.watch = some (.ended .abandoned) := rfl
  have hexited : r'.stage = .exited 2_000_000_000 (.ok .restartAbandoned) := rfl
  have hmissed : r.notices.missed = 3 := rfl
  have hlength : r.notices.messages.length = 32 := rfl
  obtain ⟨-, hends⟩ := exits_as_watch ⟨Rehearsal.World.surroundings,
      { restart := { cooldown := .ofSecs 0, maxAttempts := some 33 } }⟩ ["p"] 5
    { world := { record := some { port := 1, pid := 100 }, alive := [100] } } 3 (.ofLimit 8) givingUp
  obtain ⟨hnever, hagrees⟩ := exits_as_watch ⟨Rehearsal.World.surroundings,
      { restart := { cooldown := .ofSecs 0, maxAttempts := some 33 } }⟩ ["p"] 5
    { world := { record := some { port := 1, pid := 100 }, alive := [100] } } 3 (.ofLimit 8)
    (givingUp ++ catchingUp)
  have hcomes := (hends hquiet).2 .abandoned hstage hw
  obtain ⟨-, -, habandoned⟩ := (hagrees hquiet').1 2_000_000_000 .restartAbandoned hexited
  refine ⟨⟨hquiet', hstage, ?_, hw⟩, ?_, hexited, habandoned.mp rfl, hnever⟩
  · omega
  · exact hcomes

end Run

end Vigil.Shell
