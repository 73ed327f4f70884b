import Vigil.Proofs.Daemon.Farewells
import Vigil.Proofs.Link.Moves
import Vigil.Shell.Run

/-! A run of the shell under every order of its tasks' turns, whatever daemon, connection and
streams do, and all that one move can come to. -/
namespace Vigil

namespace Link.Reconnect

/-- What a turn of a loop, the end of an attempt or the report of a loss can do to a connection: one
that never was only comes to be by a loop. -/
structure Follows (c c' : Reconnect) : Prop where
  loops : c'.loops.length = c.loops.length
  state : c'.state = c.state ∨ c'.state ≠ .never ∧ (c.state ≠ .never ∨ c.loops ≠ [])

namespace Follows

variable (c : Reconnect)

theorem refl : c.Follows c := ⟨rfl, .inl rfl⟩

theorem put (n : Nat) (l : Loop) : c.Follows (c.put n l) := ⟨List.length_set, .inl rfl⟩

theorem finish (n : Nat) : c.Follows (c.finish n) := ⟨List.length_set, .inl rfl⟩

theorem park (n : Nat) : c.Follows (c.park n) := by
  unfold Reconnect.park
  split
  · exact ⟨List.length_set, .inl rfl⟩
  · exact ⟨List.length_set, .inl rfl⟩

theorem turn (n : Nat) : c.Follows (c.turn n) := by
  unfold Reconnect.turn
  split
  · exact refl c
  · split
    · exact finish c n
    · split
      · split
        · exact park c n
        · exact ⟨List.length_set, .inl rfl⟩
      · exact put c n .ready
      · exact put c n .ready
      · exact put c n _
      · exact refl c

theorem resume (n : Nat) : c.Follows (c.resume n) := by
  unfold Reconnect.resume
  split
  · exact finish c n
  · split
    · exact park c n
    · exact put c n _

theorem markDisconnected : c.Follows c.markDisconnected := by
  by_cases h : c.state = .connected
  · rw [markDisconnected_of_connected c h]
    exact ⟨rfl, .inr ⟨nofun, .inl (by simp [h])⟩⟩
  · rw [markDisconnected_of_ne c h]
    exact refl c

theorem connect (hloops : c.loops ≠ []) (d : Record) : c.Follows (c.connect d) := by
  unfold Reconnect.connect
  split
  · exact refl c
  · exact ⟨rfl, .inr ⟨nofun, .inr hloops⟩⟩

end Follows

end Link.Reconnect

namespace Shell

/-- What the main task may have to attend to in its loop. -/
inductive Topic where
  | interruption | notice | state | loss

namespace Run

variable {σ : Type}

/-- Attends to one thing, if it has come up. -/
def attendTo (r : Run σ) : Topic → Run σ
  | .interruption => if r.interrupted then r.close .interrupted else r
  | .notice =>
    match r.notices.take? with
    | some (.message n, notices) => { r with notices }.onNotice n
    | some (.missed _, notices) => { r with notices }
    | none => r
  | .state => if r.stateChanged then { r with stateChanged := false }.showState false else r
  | .loss => if 0 < r.lost then { r with lost := r.lost - 1 }.markDisconnected else r

/-- A turn of the main task in which it attends to one of the things that have come up, whichever it
is, once it is in its loop. -/
def mainTurnOn (r : Run σ) (topic : Topic) : Run σ :=
  match r.stage with
  | .looping => r.attendTo topic
  | _ => r.mainTurn

theorem exists_attendTo (r : Run σ) : ∃ topic, r.attend = r.attendTo topic := by
  unfold attend
  by_cases hi : r.interrupted = true
  · exact ⟨.interruption, by rw [attendTo, if_pos hi, if_pos hi]⟩
  · rw [if_neg hi]
    cases ht : r.notices.take? with
    | some p =>
      refine ⟨.notice, ?_⟩
      obtain ⟨item, notices⟩ := p
      unfold attendTo
      rw [ht]
      cases item <;> rfl
    | none =>
      by_cases hc : r.stateChanged = true
      · exact ⟨.state, by rw [attendTo, if_pos hc, if_pos hc]⟩
      · exact ⟨.loss, by rw [attendTo, if_neg hc]⟩

/-- A turn of the main task is one of these. -/
theorem exists_mainTurnOn (r : Run σ) : ∃ topic, r.mainTurn = r.mainTurnOn topic := by
  unfold mainTurnOn
  cases hstage : r.stage with
  | looping =>
    by_cases hready : r.mainReady = true
    · obtain ⟨topic, htopic⟩ := r.exists_attendTo
      refine ⟨topic, ?_⟩
      simp only [mainTurn, hready, hstage, htopic]
      rfl
    · have hidle := hready
      simp only [mainReady, hstage, Bool.or_eq_true, not_or] at hidle
      refine ⟨.interruption, ?_⟩
      rw [mainTurn, if_pos (by simpa using hready), attendTo, if_neg hidle.1.1.1]
  | ensuring | delaying | closing | exited => exact ⟨.notice, rfl⟩

/-- A turn of the watch; a cancellation that is there may be heard or not. -/
def watchTurnOn (r : Run σ) (hears : Bool) : Run σ :=
  match r.watch with
  | none => r
  | some w =>
    let (w, s) := w.turn r.supervisor r.supervision (r.watchCancelled && hears)
    { r.withSupervision s with watch := some w }

theorem watchTurn_eq (r : Run σ) : r.watchTurn = r.watchTurnOn true := by
  cases hw : r.watch with
  | none => simp [watchTurn, watchTurnOn, hw]
  | some w => simp [watchTurn, watchTurnOn, hw]

inductive Move (σ : Type) where
  /-- The surroundings become others. -/
  | world (w : σ)
  | pass (elapsed : Nat)
  | interrupt
  /-- What waits in the queue is taken out. -/
  | drain
  | main (topic : Topic)
  | watch (hears : Bool)
  | loop
  /-- An acquisition under way ends; with none under way nothing happens. -/
  | acquired (found : Option Record)
  | pump (id : Nat) (answer : Subscriptions.Answer)
  | receive (id : Nat) (item : StreamItem)

/-- A run that has not begun. -/
def fresh (v : Daemon.Supervisor σ) (projects : List String) (exitDelay : Nat)
    (supervision : Daemon.Supervision σ) (interval : Nat) (queue : Queue) : Run σ :=
  { supervisor := v, projects, exitDelay, supervision, reconnect := { interval }, queue }

def step (r : Run σ) : Move σ → Run σ
  | .world w => { r with supervision := { r.supervision with world := w } }
  | .pass elapsed => r.moveTo (r.now + elapsed)
  | .interrupt => { r with interrupted := true }
  | .drain => { r with queue := r.queue.drain.1 }
  | .main topic => r.mainTurnOn topic
  | .watch hears => r.watchTurnOn hears
  | .loop => r.loopTurn
  | .acquired found => if r.reconnect.loops[0]? = some .acquiring then r.acquired found else r
  | .pump id answer => r.pumpTurn answer id
  | .receive id item => { r with subscriptions := r.subscriptions.receive id item }

def run (r : Run σ) (moves : List (Move σ)) : Run σ := moves.foldl step r

/-- An invariant of single moves is one of runs. -/
theorem run_induction {P : Run σ → Prop} (hstep : ∀ r move, P r → P (r.step move)) {r : Run σ}
    (hr : P r) (moves : List (Move σ)) : P (r.run moves) := by
  induction moves generalizing r with
  | nil => exact hr
  | cons move rest ih => exact ih (hstep r move hr)

end Run

/-- How a run ends, once that is decided. -/
def Stage.exit? : Stage → Option Exit
  | .delaying _ => some .daemonShutdown
  | .closing exit | .exited _ (.ok exit) => some exit
  | .ensuring _ | .looping | .exited _ (.error _) => none

/-- Whether a daemon was there. -/
def Stage.served : Stage → Bool
  | .ensuring _ | .exited _ (.error _) => false
  | .looping | .delaying _ | .closing _ | .exited _ (.ok _) => true

namespace Run

variable {σ : Type} {r r' : Run σ}

/-- The overlays sent so far, the first one first. -/
def overlays (r : Run σ) : List Overlay := r.trail.reverse.filterMap (·.overlay?)

theorem send_overlays (r : Run σ) (e : Event) :
    (r.send e).overlays = r.overlays ++ e.overlay?.toList := by
  cases h : e.overlay? <;> simp [overlays, send, h]

/-! ### What is done on the side -/

/-- Nothing but the streams, the channel and the queue is different, and no overlay was sent. -/
def Aside (r r' : Run σ) : Prop :=
  ∃ subscriptions channel queue trail lost,
    r' = { r with subscriptions, channel, queue, trail, lost } ∧ r'.overlays = r.overlays

namespace Aside

theorem refl (r : Run σ) : Aside r r := ⟨_, _, _, _, _, rfl, rfl⟩

theorem trans {r'' : Run σ} (h : Aside r r') (h' : Aside r' r'') : Aside r r'' := by
  obtain ⟨_, _, _, _, _, rfl, ho⟩ := h
  obtain ⟨_, _, _, _, _, rfl, ho'⟩ := h'
  exact ⟨_, _, _, _, _, rfl, ho'.trans ho⟩

theorem send (r : Run σ) {e : Event} (he : e.overlay? = none) : Aside r (r.send e) := by
  have hsame := r.send_overlays e
  rw [he, Option.toList_none, List.append_nil] at hsame
  exact ⟨_, _, _, _, _, rfl, hsame⟩

theorem hear (r : Run σ) (d : Nat × SubscriptionDeed) : Aside r (r.hear d) := by
  obtain ⟨id, d⟩ := d
  cases d with
  | ask => exact refl r
  | event e =>
    unfold Run.hear
    dsimp only
    split
    · exact send r rfl
    · exact refl r
  | ended how =>
    unfold Run.hear
    cases how with
    | disconnected status =>
      have hlost : Aside r { r with lost := r.lost + 1 } := ⟨_, _, _, _, _, rfl, rfl⟩
      dsimp only
      split
      · exact hlost.trans (send _ rfl)
      · exact hlost
    | cancelled | completed | failed =>
      dsimp only
      split
      · exact send r rfl
      · exact refl r

theorem withSubscriptions (r : Run σ) (m : Subscriptions) : Aside r (r.withSubscriptions m) := by
  have hfold (deeds : List (Nat × SubscriptionDeed)) (r : Run σ) :
      Aside r (deeds.foldl Run.hear r) := by
    induction deeds generalizing r with
    | nil => exact refl r
    | cons d rest ih => exact (hear r d).trans (ih (r.hear d))
  have hset : Aside r { r with subscriptions := m } := ⟨_, _, _, _, _, rfl, rfl⟩
  exact hset.trans (hfold _ _)

theorem unsubscribeEverything (r : Run σ) : Aside r r.unsubscribeEverything :=
  withSubscriptions r _

theorem subscribeProjects (r : Run σ) : Aside r r.subscribeProjects := by
  unfold Run.subscribeProjects
  generalize (r.projects.flatMap fun p => projectKinds.map (StreamKey.mk p)) = keys
  induction keys generalizing r with
  | nil => exact refl r
  | cons key rest ih => exact (withSubscriptions r _).trans (ih _)

theorem log (r : Run σ) (line : String) : Aside r (r.log line) := send r rfl

theorem bind (r : Run σ) (d : Record) : Aside r (r.bind d) := ⟨_, _, _, _, _, rfl, rfl⟩

theorem withReconnect (h : Aside r r') (c : Link.Reconnect) :
    Aside (r.withReconnect c) (r'.withReconnect c) := by
  obtain ⟨_, _, _, _, _, rfl, ho⟩ := h
  exact ⟨_, _, _, _, _, rfl, ho⟩

theorem markDisconnected (h : Aside r r') : Aside r.markDisconnected r'.markDisconnected := by
  have hmarked := h.withReconnect r.reconnect.markDisconnected
  obtain ⟨_, _, _, _, _, rfl, -⟩ := h
  exact hmarked

theorem showState (h : Aside r r') (shutdownSeen : Bool) :
    Aside (r.showState shutdownSeen) (r'.showState shutdownSeen) := by
  obtain ⟨_, _, _, _, _, rfl, ho⟩ := h
  refine ⟨_, _, _, _, _, rfl, ?_⟩
  rw [Run.showState, Run.showState, send_overlays, send_overlays, ho]

theorem resume (h : Aside r r') (n : Nat) :
    Aside (r.withReconnect (r.reconnect.resume n)) (r'.withReconnect (r'.reconnect.resume n)) := by
  have hresumed := h.withReconnect (r.reconnect.resume n)
  obtain ⟨_, _, _, _, _, rfl, -⟩ := h
  exact hresumed

theorem enterLoop (h : Aside r r') :
    Aside { r with stage := .looping, reconnect := r.reconnect.spawn, watch := some .called }
      { r' with stage := .looping, reconnect := r'.reconnect.spawn, watch := some .called } := by
  obtain ⟨_, _, _, _, _, rfl, ho⟩ := h
  exact ⟨_, _, _, _, _, rfl, ho⟩

theorem delay (h : Aside r r') :
    Aside { r with stage := .delaying (r.now + r.exitDelay) }
      { r' with stage := .delaying (r'.now + r'.exitDelay) } := by
  obtain ⟨_, _, _, _, _, rfl, ho⟩ := h
  exact ⟨_, _, _, _, _, rfl, ho⟩

theorem close (h : Aside r r') (exit : Exit) :
    Aside { r with
      watchCancelled := true
      reconnect := r.reconnect.stop
      stage := .closing exit } (r'.close exit) := by
  have hstopped : Aside { r with watchCancelled := true, reconnect := r.reconnect.stop }
      { r' with watchCancelled := true, reconnect := r'.reconnect.stop } := by
    obtain ⟨_, _, _, _, _, rfl, ho⟩ := h
    exact ⟨_, _, _, _, _, rfl, ho⟩
  obtain ⟨_, _, _, _, _, heq, ho⟩ := hstopped.trans (unsubscribeEverything _)
  exact ⟨_, _, _, _, _, congrArg (fun r => { r with stage := .closing exit }) heq, ho⟩

end Aside

theorem withReconnect_self (r : Run σ) : r.withReconnect r.reconnect = r := by
  simp [Run.withReconnect]

theorem withReconnect_withReconnect (r : Run σ) {c c' : Link.Reconnect} (h : c'.state = c.state) :
    (r.withReconnect c).withReconnect c' = r.withReconnect c' := by
  simp [Run.withReconnect, h]

/-! ### What a move can come to -/

/-- All that a move but an interruption can come to, up to what is done on the side. -/
inductive Stepped (r : Run σ) : Run σ → Prop where
  | same : Stepped r r
  | world (w : σ) : Stepped r { r with supervision := { r.supervision with world := w } }
  | passed (t : Nat) : Stepped r (r.moveTo t)
  | waits {e e' : Daemon.Ensure} {s : Daemon.Supervision σ} (hstage : r.stage = .ensuring e)
      (hturn : e.turn r.supervisor r.supervision false = (e', s)) :
      Stepped r { r.withSupervision s with stage := .ensuring e' }
  | fails {e : Daemon.Ensure} {s : Daemon.Supervision σ} {at_ : Nat} {err : Daemon.StartError}
      (hstage : r.stage = .ensuring e)
      (hturn : e.turn r.supervisor r.supervision false = (.done at_ (.error err), s)) :
      Stepped r { r.withSupervision s with stage := .exited at_ (.error err) }
  | serves {e : Daemon.Ensure} {s : Daemon.Supervision σ} {at_ : Nat} {d : Record}
      (hstage : r.stage = .ensuring e) (hopen : e.isDone = false)
      (hturn : e.turn r.supervisor r.supervision false = (.done at_ (.ok d), s)) :
      Stepped r { { r.withSupervision s with stateChanged := false }.showState false with
        stage := .looping
        reconnect := r.reconnect.spawn
        watch := some .called }
  | interruption (hstage : r.stage = .looping) (hi : r.interrupted = true) :
      Stepped r { r with
        watchCancelled := true
        reconnect := r.reconnect.stop
        stage := .closing .interrupted }
  | lagged {n : Nat} {notices : Mailbox Daemon.Notice} (hstage : r.stage = .looping)
      (ht : r.notices.take? = some (.missed n, notices)) : Stepped r { r with notices }
  | noticed {n : Daemon.Notice} {notices : Mailbox Daemon.Notice} {c : Link.Reconnect}
      (hstage : r.stage = .looping) (ht : r.notices.take? = some (.message n, notices))
      (hn : n.exit? = none) (hc : r.reconnect.Follows c) :
      Stepped r ({ r with notices }.withReconnect c)
  | abandoned {n : Nat} {notices : Mailbox Daemon.Notice} (hstage : r.stage = .looping)
      (ht : r.notices.take? = some (.message (.abandoned n), notices)) :
      Stepped r { r with
        notices
        watchCancelled := true
        reconnect := r.reconnect.stop
        stage := .closing .restartAbandoned }
  | shutdown {notices : Mailbox Daemon.Notice} (hstage : r.stage = .looping)
      (ht : r.notices.take? = some (.message .shutdown, notices)) :
      Stepped r { { r with notices, reconnect := r.reconnect.stop }.showState true with
        stage := .delaying (r.now + r.exitDelay) }
  | shown (hstage : r.stage = .looping) (hchanged : r.stateChanged = true) :
      Stepped r ({ r with stateChanged := false }.showState false)
  | delayed {due : Nat} (hstage : r.stage = .delaying due) :
      Stepped r { r with
        watchCancelled := true
        reconnect := r.reconnect.stop
        stage := .closing .daemonShutdown }
  | exits {exit : Exit} (hstage : r.stage = .closing exit) :
      Stepped r { r with stage := .exited r.now (.ok exit) }
  | watched {w w' : Daemon.Watch} {s : Daemon.Supervision σ} (hw : r.watch = some w)
      {cancelled : Bool} (hc : cancelled = true → r.watchCancelled = true)
      (hturn : w.turn r.supervisor r.supervision cancelled = (w', s)) :
      Stepped r { r.withSupervision s with watch := some w' }
  | linked {c : Link.Reconnect} (hc : r.reconnect.Follows c) : Stepped r (r.withReconnect c)

/-- What such a move can come to, with what is done on the side. -/
def Leads (r r' : Run σ) : Prop := ∃ r₁, Stepped r r₁ ∧ Aside r₁ r'

theorem Stepped.leads (h : Stepped r r') : Leads r r' := ⟨r', h, .refl r'⟩

theorem Aside.leads (h : Aside r r') : Leads r r' := ⟨r, .same, h⟩

/-- At a notice that does not tell an end a loss may be reported, and a line is logged. -/
theorem onNotice_plain (r : Run σ) {n : Daemon.Notice} (hn : n.exit? = none) :
    ∃ c, r.reconnect.Follows c ∧ Aside (r.withReconnect c) (r.onNotice n) := by
  have hkept : ∃ c, r.reconnect.Follows c ∧ r.withReconnect c = r :=
    ⟨r.reconnect, .refl r.reconnect, r.withReconnect_self⟩
  obtain ⟨c, hc, hsame⟩ := hkept
  cases n with
  | ready d =>
    refine ⟨c, hc, ?_⟩
    rw [hsame]
    exact .refl r
  | crashed pid =>
    have hmarked := (Aside.unsubscribeEverything r).markDisconnected
    exact ⟨_, .markDisconnected r.reconnect, hmarked.trans (.log _ _)⟩
  | restarted d =>
    refine ⟨c, hc, ?_⟩
    rw [hsame]
    exact (Aside.bind r d).trans (.log _ _)
  | restartFailed k e wait =>
    refine ⟨c, hc, ?_⟩
    rw [hsame]
    exact .log r _
  | abandoned | shutdown => cases hn

theorem leads_onNotice {n : Daemon.Notice} {notices : Mailbox Daemon.Notice}
    (hstage : r.stage = .looping) (ht : r.notices.take? = some (.message n, notices)) :
    Leads r ({ r with notices }.onNotice n) := by
  have hplain (hn : n.exit? = none) : Leads r ({ r with notices }.onNotice n) := by
    obtain ⟨c, hc, haside⟩ := onNotice_plain { r with notices } hn
    exact ⟨_, .noticed hstage ht hn hc, haside⟩
  cases n with
  | ready | crashed | restarted | restartFailed => exact hplain rfl
  | abandoned k => exact ⟨_, .abandoned hstage ht, (Aside.log { r with notices } _).close _⟩
  | shutdown =>
    have hquiet := Aside.unsubscribeEverything { r with notices, reconnect := r.reconnect.stop }
    exact ⟨_, .shutdown hstage ht, (hquiet.showState true).delay⟩

theorem leads_attendTo (hstage : r.stage = .looping) (topic : Topic) :
    Leads r (r.attendTo topic) := by
  cases topic with
  | interruption =>
    by_cases hi : r.interrupted = true
    · rw [attendTo, if_pos hi]
      exact ⟨_, .interruption hstage hi, (Aside.refl r).close .interrupted⟩
    · rw [attendTo, if_neg hi]
      exact Stepped.same.leads
  | notice =>
    cases ht : r.notices.take? with
    | none =>
      simp only [attendTo, ht]
      exact Stepped.same.leads
    | some p =>
      obtain ⟨item, notices⟩ := p
      cases item with
      | missed n =>
        simp only [attendTo, ht]
        exact (Stepped.lagged hstage ht).leads
      | message n =>
        simp only [attendTo, ht]
        exact leads_onNotice hstage ht
  | state =>
    by_cases hchanged : r.stateChanged = true
    · rw [attendTo, if_pos hchanged]
      exact (Stepped.shown hstage hchanged).leads
    · rw [attendTo, if_neg hchanged]
      exact Stepped.same.leads
  | loss =>
    by_cases hlost : 0 < r.lost
    · rw [attendTo, if_pos hlost]
      have hless : Aside r { r with lost := r.lost - 1 } := ⟨_, _, _, _, _, rfl, rfl⟩
      exact ⟨_, .linked (.markDisconnected r.reconnect), hless.withReconnect _⟩
    · rw [attendTo, if_neg hlost]
      exact Stepped.same.leads

theorem leads_mainTurnOn (topic : Topic) : Leads r (r.mainTurnOn topic) := by
  unfold mainTurnOn
  cases hstage : r.stage with
  | looping => exact leads_attendTo hstage topic
  | ensuring e =>
    by_cases hready : r.mainReady = true
    · have hopen : e.isDone = false := by
        simp only [mainReady, hstage] at hready
        cases e with
        | called | polling => rfl
        | done => cases hready
      simp only [mainTurn, hready, hstage]
      cases hturn : e.turn r.supervisor r.supervision false with
      | mk e' s =>
        cases e' with
        | called | polling => exact (Stepped.waits hstage hturn).leads
        | done at_ result =>
          cases result with
          | error err => exact (Stepped.fails hstage hturn).leads
          | ok d =>
            have hbound : Aside { r.withSupervision s with stateChanged := false }
                { (r.withSupervision s).bind d with stateChanged := false } :=
              ⟨_, _, _, _, _, rfl, rfl⟩
            exact ⟨_, .serves hstage hopen hturn, (hbound.showState false).enterLoop⟩
    · rw [mainTurn, if_pos (by simpa using hready)]
      exact Stepped.same.leads
  | delaying due =>
    by_cases hready : r.mainReady = true
    · simp only [mainTurn, hready, hstage]
      exact ⟨_, .delayed hstage, (Aside.refl r).close .daemonShutdown⟩
    · rw [mainTurn, if_pos (by simpa using hready)]
      exact Stepped.same.leads
  | closing exit =>
    by_cases hready : r.mainReady = true
    · simp only [mainTurn, hready, hstage]
      exact (Stepped.exits hstage).leads
    · rw [mainTurn, if_pos (by simpa using hready)]
      exact Stepped.same.leads
  | exited at_ result =>
    have hidle : r.mainReady = false := by
      simp only [mainReady, hstage]
    rw [mainTurn, if_pos (by simp [hidle])]
    exact Stepped.same.leads

theorem leads_acquired (hloop : r.reconnect.loops[0]? = some .acquiring) (found : Option Record) :
    Leads r (r.acquired found) := by
  have hloops : r.reconnect.loops ≠ [] := by
    intro hnone
    simp [hnone] at hloop
  have hresumed : Leads r (r.withReconnect (r.reconnect.resume 0)) :=
    (Stepped.linked (.resume r.reconnect 0)).leads
  cases found with
  | none => exact hresumed
  | some d =>
    by_cases hstopped : r.reconnect.stopped = true
    · simp only [acquired, hstopped]
      exact hresumed
    · have hfollows : r.reconnect.Follows ((r.reconnect.connect d).resume 0) := by
        have hconnect := Link.Reconnect.Follows.connect r.reconnect hloops d
        have hresume := Link.Reconnect.Follows.resume (r.reconnect.connect d) 0
        refine ⟨hresume.loops.trans hconnect.loops, ?_⟩
        rw [Link.Reconnect.resume_state]
        exact hconnect.state
      have hstep : Stepped r
          ((r.withReconnect (r.reconnect.connect d)).withReconnect
            ((r.reconnect.connect d).resume 0)) := by
        rw [withReconnect_withReconnect r (Link.Reconnect.resume_state _ 0)]
        exact .linked hfollows
      simp only [acquired, hstopped]
      exact ⟨_, hstep, (Aside.subscribeProjects _).resume 0⟩

/-- Every move but an interruption leads to something of that kind. -/
theorem leads (r : Run σ) {move : Move σ} (hmove : move ≠ .interrupt) : Leads r (r.step move) := by
  cases move with
  | world w => exact (Stepped.world w).leads
  | pass elapsed => exact (Stepped.passed _).leads
  | interrupt => exact absurd rfl hmove
  | drain => exact Aside.leads ⟨_, _, _, _, _, rfl, rfl⟩
  | main topic => exact leads_mainTurnOn topic
  | watch hears =>
    change Leads r (r.watchTurnOn hears)
    unfold watchTurnOn
    cases hw : r.watch with
    | none => exact Stepped.same.leads
    | some w =>
      have hheard : (r.watchCancelled && hears) = true → r.watchCancelled = true := by
        simp only [Bool.and_eq_true]
        exact And.left
      exact (Stepped.watched hw hheard rfl).leads
  | loop => exact (Stepped.linked (.turn r.reconnect 0)).leads
  | acquired found =>
    by_cases hloop : r.reconnect.loops[0]? = some .acquiring
    · rw [step, if_pos hloop]
      exact leads_acquired hloop found
    · rw [step, if_neg hloop]
      exact Stepped.same.leads
  | pump id answer => exact (Aside.withSubscriptions r _).leads
  | receive id item => exact Aside.leads ⟨_, _, _, _, _, rfl, rfl⟩

/-- What holds whatever is done on the side, and is kept by all that a move can come to, is an
invariant of runs. -/
theorem invariant {P : Run σ → Prop} (haside : ∀ r r', P r → Aside r r' → P r')
    (hstep : ∀ r r', P r → Stepped r r' → P r')
    (hinterrupt : ∀ r, P r → P { r with interrupted := true }) (hr : P r) (moves : List (Move σ)) :
    P (r.run moves) := by
  refine run_induction (fun r move h => ?_) hr moves
  by_cases hmove : move = .interrupt
  · rw [hmove]
    exact hinterrupt r h
  · obtain ⟨r₁, hs, ha⟩ := r.leads hmove
    exact haside r₁ _ (hstep r r₁ h hs) ha

/-! ### What is decided -/

theorem Stepped.decided (h : Stepped r r') {exit : Exit} (hexit : r.stage.exit? = some exit) :
    r'.stage.exit? = some exit ∧ r'.overlays = r.overlays := by
  have hnot {stage : Stage} (hstage : r.stage = stage) (hopen : stage.exit? = none) : False := by
    rw [hstage, hopen] at hexit
    cases hexit
  cases h with
  | same | world | passed | lagged | watched | linked => exact ⟨hexit, rfl⟩
  | waits hstage | fails hstage | serves hstage | interruption hstage | noticed hstage
  | abandoned hstage | shutdown hstage | shown hstage => exact (hnot hstage rfl).elim
  | delayed hstage | exits hstage =>
    rw [hstage] at hexit
    exact ⟨hexit, rfl⟩

/-- A run whose end is decided goes on to that end, and sends no overlay any more. -/
theorem decided_run {exit : Exit} (hexit : r.stage.exit? = some exit) (moves : List (Move σ)) :
    (r.run moves).stage.exit? = some exit ∧ (r.run moves).overlays = r.overlays := by
  refine invariant (P := fun r' => r'.stage.exit? = some exit ∧ r'.overlays = r.overlays)
    ?_ ?_ (fun _ h => h) ⟨hexit, rfl⟩ moves
  · rintro r' r'' ⟨hdecided, hsent⟩ ⟨_, _, _, _, _, rfl, ho⟩
    exact ⟨hdecided, ho.trans hsent⟩
  · rintro r' r'' ⟨hdecided, hsent⟩ hs
    obtain ⟨hdecided', hsent'⟩ := hs.decided hdecided
    exact ⟨hdecided', hsent'.trans hsent⟩

/-! ### Interruptions -/

theorem Stepped.interrupted_eq (h : Stepped r r') : r'.interrupted = r.interrupted := by
  cases h <;> rfl

theorem interrupted_run {moves : List (Move σ)} (hmoves : .interrupt ∉ moves) :
    (r.run moves).interrupted = r.interrupted := by
  induction moves generalizing r with
  | nil => rfl
  | cons move rest ih =>
    obtain ⟨hmove, hrest⟩ := not_or.mp (mt List.mem_cons.mpr hmoves)
    obtain ⟨r₁, hs, _, _, _, _, _, heq, -⟩ := r.leads (Ne.symm hmove)
    have hkept : (r.step move).interrupted = r.interrupted := by
      rw [heq]
      exact hs.interrupted_eq
    exact (ih hrest).trans hkept

end Run

end Shell

end Vigil
