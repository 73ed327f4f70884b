import Vigil.Proofs.Link.Intervals
import Vigil.Proofs.Shell.Moves
import Vigil.Proofs.Streams.Renewals

/-! A run seen from its connection and its streams. Whatever daemon, watch and queue do, all that a
move does to these is one of a few acts. -/
namespace Vigil.Shell

/-- The keys of all streams that projects have. -/
def wanted (projects : List String) : List StreamKey :=
  projects.flatMap fun p => Run.projectKinds.map (StreamKey.mk p)

/-- The event that a deed is sent as, if it is sent; a subscription's number is the place of its key
in the list. -/
def eventOf? (keys : List StreamKey) : Nat × SubscriptionDeed → Option Event
  | (_, .ask) => none
  | (id, .event e) => keys[id]?.map fun key => .stream key.subject e
  | (id, .ended how) => keys[id]?.bind fun key => how.detail?.map (.ended key.subject key.kind)

/-- What is there of a run once all but the connection and the streams is left out. -/
structure Traffic where
  projects : List String
  /-- Whether a daemon was there. -/
  served : Bool
  /-- How the run ends, once that is decided. -/
  exit : Option Exit
  now : Nat
  reconnect : Link.Reconnect
  subscriptions : Subscriptions
  /-- The events about projects that were sent, the newest first. -/
  events : List Event

namespace Traffic

/-- A step of the subscriptions; what they tell is sent. -/
def stream (f : Traffic) (s : Subscriptions.Step) : Traffic :=
  let m := f.subscriptions.step s
  let fresh := m.trail.take (m.trail.length - f.subscriptions.trail.length)
  { f with
    subscriptions := m
    events := fresh.filterMap (eventOf? m.keys) ++ f.events }

/-- All projects get new subscriptions. -/
def renew (f : Traffic) : Traffic :=
  ((wanted f.projects).map .subscribe).foldl stream f

theorem renew_reconnect (f : Traffic) (c : Link.Reconnect) :
    { f with reconnect := c }.renew = { f.renew with reconnect := c } := by
  have hfold (steps : List Subscriptions.Step) (f : Traffic) :
      steps.foldl stream { f with reconnect := c } =
        { steps.foldl stream f with reconnect := c } := by
    induction steps generalizing f with
    | nil => rfl
    | cons s rest ih => exact ih (f.stream s)
  exact hfold _ f

inductive Act where
  | rest
  | pass (elapsed : Nat)
  /-- A daemon is there, and from now on the connection is kept. -/
  | serve
  /-- A turn of the loop that keeps the connection. -/
  | turn
  /-- A stream was lost. -/
  | lose
  /-- The daemon crashed. -/
  | crash
  /-- The end of the run is decided. -/
  | leave (exit : Exit)
  /-- An acquisition ends and brings no connection that counts. -/
  | miss
  /-- An acquisition brings a connection. -/
  | connect (d : Record)
  | pump (id : Nat) (answer : Subscriptions.Answer)
  | receive (id : Nat) (item : StreamItem)

def act (f : Traffic) : Act → Traffic
  | .rest => f
  | .pass elapsed =>
    { f with now := f.now + elapsed, reconnect := { f.reconnect with now := f.now + elapsed } }
  | .serve => { f with served := true, reconnect := f.reconnect.spawn }
  | .turn => { f with reconnect := f.reconnect.turn 0 }
  | .lose => { f with reconnect := f.reconnect.markDisconnected }
  | .crash =>
    { f.stream .unsubscribeEverything with reconnect := f.reconnect.markDisconnected }
  | .leave exit =>
    { f.stream .unsubscribeEverything with exit := some exit, reconnect := f.reconnect.stop }
  | .miss => { f with reconnect := f.reconnect.resume 0 }
  | .connect d => { f.renew with reconnect := (f.reconnect.connect d).resume 0 }
  | .pump id answer => f.stream (.turn id answer)
  | .receive id item => f.stream (.receive id item)

/-- When an act can come up. -/
def Allows (f : Traffic) : Act → Prop
  | .serve => f.served = false ∧ f.exit = none
  | .lose | .crash | .leave _ => f.served = true
  | .miss => f.reconnect.loops[0]? = some .acquiring
  | .connect _ => f.reconnect.loops[0]? = some .acquiring ∧ f.reconnect.stopped = false
  | .rest | .pass _ | .turn | .pump .. | .receive .. => True

end Traffic

namespace Run

variable {σ : Type} {r : Run σ}

/-- The events about projects that were sent so far, the newest first. -/
def streamEvents (r : Run σ) : List Event := r.trail.filter (·.project?.isSome)

def traffic (r : Run σ) : Traffic where
  projects := r.projects
  served := r.stage.served
  exit := r.stage.exit?
  now := r.now
  reconnect := r.reconnect
  subscriptions := r.subscriptions
  events := r.streamEvents

/-! ### What the parts of a move come to -/

theorem log_traffic (r : Run σ) (line : String) : (r.log line).traffic = r.traffic := rfl

theorem withReconnect_traffic (r : Run σ) (c : Link.Reconnect) :
    (r.withReconnect c).traffic = { r.traffic with reconnect := c } := rfl

theorem send_traffic (r : Run σ) {e : Event} (he : e.project?.isSome = true) :
    (r.send e).traffic = { r.traffic with events := e :: r.traffic.events } := by
  have hevents : (e :: r.trail).filter (·.project?.isSome) =
      e :: r.trail.filter (·.project?.isSome) := List.filter_cons_of_pos he
  exact congrArg (fun events => { r.traffic with events }) hevents

theorem hear_traffic (r : Run σ) (d : Nat × SubscriptionDeed) :
    (r.hear d).traffic = { r.traffic with
      events := (eventOf? r.subscriptions.keys d).toList ++ r.traffic.events } := by
  obtain ⟨id, d⟩ := d
  have hkey := r.subscriptions.keys_getElem? id
  cases d with
  | ask => rfl
  | event e =>
    unfold hear eventOf?
    dsimp only
    rw [hkey]
    cases r.subscriptions.all[id]? with
    | none => rfl
    | some s => exact send_traffic r rfl
  | ended how =>
    unfold hear eventOf?
    dsimp only
    rw [hkey]
    cases how with
    | cancelled => cases r.subscriptions.all[id]? <;> rfl
    | disconnected status =>
      cases r.subscriptions.all[id]? with
      | none => rfl
      | some s => exact send_traffic { r with lost := r.lost + 1 } rfl
    | completed | failed =>
      cases r.subscriptions.all[id]? with
      | none => rfl
      | some s => exact send_traffic r rfl

theorem foldl_hear_traffic (r : Run σ) (deeds : List (Nat × SubscriptionDeed)) :
    (deeds.foldl hear r).traffic = { r.traffic with
      events := deeds.reverse.filterMap (eventOf? r.subscriptions.keys) ++ r.traffic.events } := by
  induction deeds generalizing r with
  | nil => rfl
  | cons d rest ih =>
    have hone := r.hear_traffic d
    have hsubs : (r.hear d).subscriptions = r.subscriptions := congrArg Traffic.subscriptions hone
    rw [List.foldl_cons, ih, hone, hsubs, List.reverse_cons, List.filterMap_append,
      List.append_assoc]
    cases heq : eventOf? r.subscriptions.keys d <;> simp [heq]

theorem withSubscriptions_traffic (r : Run σ) (s : Subscriptions.Step) :
    (r.withSubscriptions (r.subscriptions.step s)).traffic = r.traffic.stream s := by
  unfold withSubscriptions
  dsimp only
  rw [foldl_hear_traffic, List.reverse_reverse]
  rfl

theorem unsubscribeEverything_traffic (r : Run σ) :
    r.unsubscribeEverything.traffic = r.traffic.stream .unsubscribeEverything :=
  r.withSubscriptions_traffic .unsubscribeEverything

theorem subscribeProjects_traffic (r : Run σ) : r.subscribeProjects.traffic = r.traffic.renew := by
  have hfold (keys : List StreamKey) (r : Run σ) :
      (keys.foldl (fun r key => r.withSubscriptions (r.subscriptions.subscribe key).1) r).traffic =
        (keys.map .subscribe).foldl Traffic.stream r.traffic := by
    induction keys generalizing r with
    | nil => rfl
    | cons key rest ih =>
      have hone := r.withSubscriptions_traffic (.subscribe key)
      rw [List.foldl_cons, ih]
      exact congrArg (List.foldl Traffic.stream · _) hone
  exact hfold _ r

theorem stage_traffic (r : Run σ) (stage : Stage) : { r with stage }.traffic =
    { r.traffic with served := stage.served, exit := stage.exit? } := rfl

theorem close_traffic (hserved : r.stage.served = true) (exit : Exit) :
    (r.close exit).traffic = r.traffic.act (.leave exit) := by
  let stopped : Run σ := { r with watchCancelled := true, reconnect := r.reconnect.stop }
  have hquiet := stopped.unsubscribeEverything_traffic
  have hended : r.traffic.act (.leave exit) =
      { stopped.traffic.stream .unsubscribeEverything with served := true, exit := some exit } := by
    rw [← hserved]
    rfl
  rw [hended, ← hquiet]
  rfl

theorem markDisconnected_traffic (r : Run σ) :
    r.markDisconnected.traffic = r.traffic.act .lose := rfl

/-! ### What a move comes to -/

/-- The act that leads from one to the other, and it was one that could come up. -/
def Does (r r' : Run σ) (a : Traffic.Act) : Prop :=
  r.traffic.Allows a ∧ r'.traffic = r.traffic.act a

theorem Does.rest {r' : Run σ} (h : r'.traffic = r.traffic) : Does r r' .rest := ⟨trivial, h⟩

theorem does_crashed (hstage : r.stage = .looping) {pid : UInt32} {notices : Mailbox Daemon.Notice}
    (ht : r.notices.take? = some (.message (.crashed pid), notices)) :
    Does r (r.attendTo .notice) .crash := by
  have hserved : r.stage.served = true := by rw [hstage]; rfl
  refine ⟨hserved, ?_⟩
  simp only [attendTo, ht]
  have hquiet := unsubscribeEverything_traffic { r with notices }
  have hkept : ({ r with notices } : Run σ).unsubscribeEverything.reconnect = r.reconnect :=
    congrArg Traffic.reconnect hquiet
  unfold onNotice
  rw [log_traffic, markDisconnected_traffic, hquiet]
  rfl

theorem does_shutdown (hstage : r.stage = .looping) {notices : Mailbox Daemon.Notice}
    (ht : r.notices.take? = some (.message .shutdown, notices)) :
    Does r (r.attendTo .notice) (.leave .daemonShutdown) := by
  have hserved : r.stage.served = true := by rw [hstage]; rfl
  refine ⟨hserved, ?_⟩
  simp only [attendTo, ht]
  let stopped : Run σ := { r with notices, reconnect := r.reconnect.stop }
  have hquiet := stopped.unsubscribeEverything_traffic
  have hended : r.traffic.act (.leave .daemonShutdown) =
      { stopped.traffic.stream .unsubscribeEverything with
        served := true
        exit := some .daemonShutdown } := by
    rw [← hserved]
    rfl
  rw [hended, ← hquiet]
  rfl

theorem does_notice (hstage : r.stage = .looping) {n : Daemon.Notice}
    {notices : Mailbox Daemon.Notice} (ht : r.notices.take? = some (.message n, notices)) :
    ∃ a, Does r (r.attendTo .notice) a := by
  have hserved : r.stage.served = true := by rw [hstage]; rfl
  cases n with
  | crashed pid => exact ⟨_, does_crashed hstage ht⟩
  | shutdown => exact ⟨_, does_shutdown hstage ht⟩
  | ready d =>
    refine ⟨.rest, .rest ?_⟩
    simp only [attendTo, ht]
    rfl
  | restarted | restartFailed =>
    refine ⟨.rest, .rest ?_⟩
    simp only [attendTo, ht]
    unfold onNotice
    rw [log_traffic]
    rfl
  | abandoned k =>
    refine ⟨.leave .restartAbandoned, hserved, ?_⟩
    simp only [attendTo, ht]
    exact close_traffic (r := { r with notices }.log _) hserved .restartAbandoned

theorem does_attendTo (hstage : r.stage = .looping) (topic : Topic) :
    ∃ a, Does r (r.attendTo topic) a := by
  have hserved : r.stage.served = true := by rw [hstage]; rfl
  cases topic with
  | interruption =>
    by_cases hi : r.interrupted = true
    · rw [attendTo, if_pos hi]
      exact ⟨.leave .interrupted, hserved, close_traffic hserved .interrupted⟩
    · rw [attendTo, if_neg hi]
      exact ⟨_, .rest rfl⟩
  | notice =>
    cases ht : r.notices.take? with
    | none =>
      simp only [attendTo, ht]
      exact ⟨_, .rest rfl⟩
    | some p =>
      obtain ⟨item, notices⟩ := p
      cases item with
      | missed n =>
        simp only [attendTo, ht]
        exact ⟨_, .rest rfl⟩
      | message n => exact does_notice hstage ht
  | state =>
    by_cases hchanged : r.stateChanged = true
    · rw [attendTo, if_pos hchanged]
      exact ⟨_, .rest rfl⟩
    · rw [attendTo, if_neg hchanged]
      exact ⟨_, .rest rfl⟩
  | loss =>
    by_cases hlost : 0 < r.lost
    · rw [attendTo, if_pos hlost]
      exact ⟨.lose, hserved, rfl⟩
    · rw [attendTo, if_neg hlost]
      exact ⟨_, .rest rfl⟩

theorem does_ensuring {e : Daemon.Ensure} (hstage : r.stage = .ensuring e) :
    ∃ a, Does r r.mainTurn a := by
  by_cases hready : r.mainReady = true
  · have hclock : (e.turn r.supervisor r.supervision false).2.now = r.now :=
      (Daemon.Acts.of_routines (Daemon.Routines.ensureTurn _ _ false e)).now_eq
    have hopen : r.stage.served = false ∧ r.stage.exit? = none := by rw [hstage]; exact ⟨rfl, rfl⟩
    simp only [mainTurn, hready, hstage]
    cases hturn : e.turn r.supervisor r.supervision false with
    | mk e' s =>
      have hnow : s.now = r.now := by
        rw [hturn] at hclock
        exact hclock
      have hsame : (r.withSupervision s).traffic = r.traffic :=
        congrArg (fun now => { r.traffic with now }) hnow
      have hstill {stage : Stage} (hserved : stage.served = false) (hexit : stage.exit? = none) :
          { r.withSupervision s with stage }.traffic = r.traffic := by
        rw [stage_traffic, hsame, hserved, hexit, ← hopen.1, ← hopen.2]
        rfl
      cases e' with
      | called | polling => exact ⟨_, .rest (hstill rfl rfl)⟩
      | done at_ result =>
        cases result with
        | error err => exact ⟨_, .rest (hstill rfl rfl)⟩
        | ok d =>
          refine ⟨.serve, hopen, ?_⟩
          have hserved : r.traffic.act .serve =
              { (r.withSupervision s).traffic with
                served := true
                exit := none
                reconnect := r.reconnect.spawn } := by
            rw [hsame, ← hopen.2]
            rfl
          rw [hserved]
          rfl
  · rw [mainTurn, if_pos (by simpa using hready)]
    exact ⟨_, .rest rfl⟩

theorem does_mainTurnOn (r : Run σ) (topic : Topic) : ∃ a, Does r (r.mainTurnOn topic) a := by
  unfold mainTurnOn
  cases hstage : r.stage with
  | looping => exact does_attendTo hstage topic
  | ensuring e => exact does_ensuring hstage
  | delaying due =>
    have hserved : r.stage.served = true := by rw [hstage]; rfl
    by_cases hready : r.mainReady = true
    · simp only [mainTurn, hready, hstage]
      exact ⟨.leave .daemonShutdown, hserved, close_traffic hserved .daemonShutdown⟩
    · rw [mainTurn, if_pos (by simpa using hready)]
      exact ⟨_, .rest rfl⟩
  | closing exit =>
    by_cases hready : r.mainReady = true
    · have hsame : { r with stage := .exited r.now (.ok exit) }.traffic = r.traffic := by
        rw [stage_traffic]
        unfold traffic
        rw [hstage]
        rfl
      simp only [mainTurn, hready, hstage]
      exact ⟨_, .rest hsame⟩
    · rw [mainTurn, if_pos (by simpa using hready)]
      exact ⟨_, .rest rfl⟩
  | exited at_ result =>
    have hidle : r.mainReady = false := by simp only [mainReady, hstage]
    rw [mainTurn, if_pos (by simp [hidle])]
    exact ⟨_, .rest rfl⟩

theorem does_acquired (hloop : r.reconnect.loops[0]? = some .acquiring)
    (hgoes : r.reconnect.stopped = false) (d : Record) :
    Does r (r.acquired (some d)) (.connect d) := by
  refine ⟨⟨hloop, hgoes⟩, ?_⟩
  let connected := r.withReconnect (r.reconnect.connect d)
  have hrenewed : connected.subscribeProjects.traffic =
      { r.traffic.renew with reconnect := r.reconnect.connect d } :=
    connected.subscribeProjects_traffic.trans (r.traffic.renew_reconnect _)
  have hconnected : connected.subscribeProjects.reconnect = r.reconnect.connect d :=
    congrArg Traffic.reconnect hrenewed
  have hended : r.acquired (some d) = connected.subscribeProjects.withReconnect
      (connected.subscribeProjects.reconnect.resume 0) := by
    simp [acquired, hgoes, connected]
  rw [hended, withReconnect_traffic, hrenewed, hconnected]
  rfl

theorem does_missed (hloop : r.reconnect.loops[0]? = some .acquiring) {found : Option Record}
    (hmiss : found = none ∨ r.reconnect.stopped = true) : Does r (r.acquired found) .miss := by
  refine ⟨hloop, ?_⟩
  cases found with
  | none => rfl
  | some d =>
    have hstop : r.reconnect.stopped = true := hmiss.resolve_left nofun
    simp only [acquired, hstop]
    rfl

/-- Every move is one of the acts, and one that can come up. -/
theorem does (r : Run σ) (move : Move σ) : ∃ a, Does r (r.step move) a := by
  cases move with
  | world w => exact ⟨_, .rest rfl⟩
  | pass elapsed => exact ⟨.pass elapsed, trivial, rfl⟩
  | interrupt => exact ⟨_, .rest rfl⟩
  | drain => exact ⟨_, .rest rfl⟩
  | main topic => exact does_mainTurnOn r topic
  | watch hears =>
    refine ⟨.rest, .rest ?_⟩
    change (r.watchTurnOn hears).traffic = r.traffic
    unfold watchTurnOn
    cases hw : r.watch with
    | none => rfl
    | some w =>
      have hclock := (Daemon.Acts.watchTurn r.supervisor r.supervision
        (r.watchCancelled && hears) w).now_eq
      exact congrArg (fun now => { r.traffic with now }) hclock
  | loop => exact ⟨.turn, trivial, rfl⟩
  | acquired found =>
    by_cases hloop : r.reconnect.loops[0]? = some .acquiring
    · rw [step, if_pos hloop]
      cases found with
      | none => exact ⟨_, does_missed hloop (.inl rfl)⟩
      | some d =>
        cases hstop : r.reconnect.stopped with
        | true => exact ⟨_, does_missed hloop (.inr hstop)⟩
        | false => exact ⟨_, does_acquired hloop hstop d⟩
    · rw [step, if_neg hloop]
      exact ⟨_, .rest rfl⟩
  | pump id answer =>
    exact ⟨.pump id answer, trivial, r.withSubscriptions_traffic (.turn id answer)⟩
  | receive id item =>
    have hquiet : r.withSubscriptions (r.subscriptions.step (.receive id item)) =
        { r with subscriptions := r.subscriptions.receive id item } := by
      simp [withSubscriptions, Subscriptions.step]
    have hheard := r.withSubscriptions_traffic (.receive id item)
    rw [hquiet] at hheard
    exact ⟨.receive id item, trivial, hheard⟩

/-- What every act that can come up keeps is an invariant of runs. -/
theorem traffic_invariant {P : Traffic → Prop}
    (hact : ∀ f a, P f → f.Allows a → P (f.act a)) (hr : P r.traffic) (moves : List (Move σ)) :
    P (r.run moves).traffic := by
  refine run_induction (P := fun r => P r.traffic) (fun r move h => ?_) hr moves
  obtain ⟨a, hallowed, heq⟩ := r.does move
  rw [heq]
  exact hact r.traffic a h hallowed

end Run

/-! ### The connection of a run -/

namespace Traffic

open Link (Reconnect)

variable {f : Traffic} {a : Act}

/-- What an act is to the connection. -/
def links (f : Traffic) : Act → List Reconnect.Move
  | .rest | .serve | .pump .. | .receive .. => []
  | .pass elapsed => [.pass (f.now + elapsed - f.reconnect.now)]
  | .turn => [.turn]
  | .lose | .crash => [.call .markDisconnected]
  | .leave _ => [.call .stop]
  | .miss => [.conclude none []]
  | .connect d => [.conclude (some d) []]

/-- From this instant on a daemon may be there; with it comes the one loop that keeps the
connection. -/
structure Linked (interval since : Nat) (f : Traffic) : Prop where
  clock : f.reconnect.now ≤ f.now
  before : f.served = false →
    f.exit = none ∧ since ≤ f.reconnect.now ∧ f.reconnect = { interval, now := f.reconnect.now }
  after : f.served = true → ∃ t moves, since ≤ t ∧
    f.reconnect = Reconnect.run (.start interval) (.pass t :: moves)

/-- New subscriptions are made, and what the old ones are told is sent; nothing else is done. -/
theorem renew_eq (f : Traffic) : f.renew = { f with
    subscriptions := f.subscriptions.renew (wanted f.projects)
    events := f.renew.events } := by
  have hfold (steps : List Subscriptions.Step) (f : Traffic) : steps.foldl stream f = { f with
      subscriptions := f.subscriptions.run steps
      events := (steps.foldl stream f).events } := by
    induction steps generalizing f with
    | nil => rfl
    | cons s rest ih => exact ih (f.stream s)
  exact hfold _ f

theorem renew_projects (f : Traffic) : f.renew.projects = f.projects := by rw [f.renew_eq]

theorem renew_served (f : Traffic) : f.renew.served = f.served := by rw [f.renew_eq]

theorem renew_exit (f : Traffic) : f.renew.exit = f.exit := by rw [f.renew_eq]

theorem renew_now (f : Traffic) : f.renew.now = f.now := by rw [f.renew_eq]

theorem renew_subscriptions (f : Traffic) :
    f.renew.subscriptions = f.subscriptions.renew (wanted f.projects) := by rw [f.renew_eq]

/-- The clocks are set together, or neither is. -/
theorem act_clock (f : Traffic) (a : Act) : (f.act a).reconnect.now = (f.act a).now ∨
    (f.act a).reconnect.now = f.reconnect.now ∧ (f.act a).now = f.now := by
  cases a with
  | pass elapsed => exact .inl rfl
  | rest | serve | leave | pump | receive => exact .inr ⟨rfl, rfl⟩
  | turn => exact .inr ⟨f.reconnect.turn_now 0, rfl⟩
  | lose | crash => exact .inr ⟨(Reconnect.AtOnce.call f.reconnect .markDisconnected).now, rfl⟩
  | miss => exact .inr ⟨(Reconnect.AtOnce.resume f.reconnect 0).now, rfl⟩
  | connect d =>
    have hconnect := Reconnect.AtOnce.connect f.reconnect d
    exact .inr ⟨(hconnect.trans (.resume _ 0)).now, f.renew_now⟩

namespace Linked

variable {interval since : Nat}

theorem steady (h : f.Linked interval since) (hserved : f.served = true) :
    f.reconnect.Steady interval := by
  obtain ⟨t, moves, -, heq⟩ := h.after hserved
  rw [heq]
  exact .run interval _

/-- Only the one loop acquires. -/
theorem acquiring (h : f.Linked interval since) (hloop : f.reconnect.loops[0]? = some .acquiring) :
    f.served = true ∧ f.reconnect.loops = [.acquiring] := by
  cases hserved : f.served with
  | false =>
    obtain ⟨-, -, heq⟩ := h.before hserved
    rw [heq] at hloop
    cases hloop
  | true =>
    obtain ⟨l, hl, -⟩ := (h.steady hserved).loop
    rw [hl] at hloop
    obtain rfl : l = .acquiring := by simpa using hloop
    exact ⟨rfl, hl⟩

theorem act_reconnect (h : f.Linked interval since) (ha : f.Allows a) (hserve : a ≠ .serve) :
    (f.act a).reconnect = f.reconnect.run (f.links a) := by
  cases a with
  | serve => exact absurd rfl hserve
  | rest | turn | lose | crash | leave | pump | receive => rfl
  | pass elapsed =>
    have hclock := h.clock
    have hnow : f.now + elapsed = f.reconnect.now + (f.now + elapsed - f.reconnect.now) := by omega
    exact congrArg (fun now => { f.reconnect with now }) hnow
  | miss =>
    have hl := (h.acquiring ha).2
    exact (Reconnect.step_conclude_of_acquiring hl none []).symm
  | connect d =>
    have hl := (h.acquiring ha.1).2
    have hsettle : f.reconnect.settle (some d) [] = f.reconnect.connect d := by
      simp [Reconnect.settle, ha.2]
    have hconclude := Reconnect.step_conclude_of_acquiring hl (some d) []
    rw [Reconnect.conclude, hsettle] at hconclude
    exact hconclude.symm

theorem idle (h : f.Linked interval since) (hserved : f.served = false) :
    f.reconnect.turn 0 = f.reconnect := by
  obtain ⟨-, -, heq⟩ := h.before hserved
  have hasleep : f.reconnect.loopReady 0 = false := by
    rw [heq]
    rfl
  unfold Reconnect.turn
  rw [hasleep]
  rfl

theorem act_of_unserved (h : f.Linked interval since) (hserved : f.served = false)
    (ha : f.Allows a) : (f.act a).Linked interval since := by
  have hnot {P : Prop} (hyes : f.served = true) : P :=
    absurd (hserved.symm.trans hyes) Bool.false_ne_true
  obtain ⟨hexit, hsince, heq⟩ := h.before hserved
  have hclock := h.clock
  cases a with
  | lose | crash | leave => exact hnot ha
  | miss => exact hnot (h.acquiring ha).1
  | connect => exact hnot (h.acquiring ha.1).1
  | rest => exact h
  | pump | receive => exact ⟨h.clock, h.before, h.after⟩
  | pass elapsed =>
    refine ⟨Nat.le_refl _, fun _ => ⟨hexit, ?_, ?_⟩, hnot⟩
    · change since ≤ f.now + elapsed
      omega
    · exact congrArg (fun c => { c with now := f.now + elapsed }) heq
  | turn =>
    have hidle := h.idle hserved
    have hsame : f.act .turn = f := congrArg (fun reconnect => { f with reconnect }) hidle
    rw [hsame]
    exact h
  | serve =>
    have hstarted : f.reconnect.spawn =
        Reconnect.run (.start interval) [.pass f.reconnect.now] := by
      rw [heq]
      simp [Reconnect.run, Reconnect.step, Reconnect.start, Reconnect.spawn]
    exact ⟨h.clock, fun hyes => (Bool.false_ne_true hyes.symm).elim,
      fun _ => ⟨_, [], hsince, hstarted⟩⟩

theorem act_of_served (h : f.Linked interval since) (hserved : f.served = true)
    (ha : f.Allows a) : (f.act a).Linked interval since := by
  have hserve : a ≠ .serve := by
    rintro rfl
    exact nomatch hserved.symm.trans ha.1
  obtain ⟨t, moves, ht, heq⟩ := h.after hserved
  obtain ⟨l, hl, -⟩ := (h.steady hserved).loop
  have hreconnect := h.act_reconnect ha hserve
  have hkept : (f.act a).served = true := by
    rw [← hserved]
    cases a with
    | serve => exact absurd rfl hserve
    | connect d => exact f.renew_served
    | rest | pass | turn | lose | crash | leave | miss | pump | receive => rfl
  have hclock : (f.act a).reconnect.now ≤ (f.act a).now := by
    have hold := h.clock
    rcases act_clock f a with hset | ⟨hsame, hnow⟩ <;> omega
  refine ⟨hclock, fun hnot => (nomatch hkept.symm.trans hnot), fun _ => ?_⟩
  refine ⟨t, moves ++ f.links a, ht, ?_⟩
  rw [hreconnect, heq]
  simp [Reconnect.run]

theorem act (h : f.Linked interval since) (ha : f.Allows a) : (f.act a).Linked interval since := by
  cases hserved : f.served with
  | false => exact h.act_of_unserved hserved ha
  | true => exact h.act_of_served hserved ha

end Linked

end Traffic

end Vigil.Shell
