import Vigil.Daemon.Ensure
import Vigil.Daemon.Watch
import Vigil.Link.Channel
import Vigil.Link.Reconnect
import Vigil.Shell.Mailbox
import Vigil.Shell.Queue
import Vigil.Streams.Subscriptions
/-! One run of the shell: it keeps the daemon alive, the channel connected and the projects'
streams subscribed, until the daemon goes down on purpose or somebody interrupts it. -/
namespace Vigil.Shell

inductive Exit where
  | daemonShutdown | restartAbandoned | interrupted
deriving DecidableEq, Repr

/-- Where the main task of a run stands. -/
inductive Stage where
  | ensuring (e : Daemon.Ensure)
  | looping
  /-- The daemon went down; the farewell is shown for a while. -/
  | delaying (due : Nat)
  /-- Waits for the other tasks to end. -/
  | closing (exit : Exit)
  | exited (at_ : Nat) (result : Except Daemon.StartError Exit)

structure Run (σ : Type) where
  supervisor : Daemon.Supervisor σ
  projects : List String
  /-- How long the farewell is shown, in nanoseconds. -/
  exitDelay : Nat
  supervision : Daemon.Supervision σ
  reconnect : Link.Reconnect
  queue : Queue
  stage : Stage := .ensuring .called
  watch : Option Daemon.Watch := none
  watchCancelled : Bool := false
  subscriptions : Subscriptions := {}
  channel : Link.Channel := {}
  /-- The supervisor's notices that have not been looked at. -/
  notices : Mailbox Daemon.Notice := {}
  /-- Whether the connection's state has changed since it was last looked at. -/
  stateChanged : Bool := false
  /-- Reports of lost connections that have not been looked at. -/
  lost : Nat := 0
  interrupted : Bool := false
  /-- Every event that was sent, the newest first. -/
  trail : List Event := []

namespace Run

variable {σ : Type}

def now (r : Run σ) : Nat := r.supervision.now

def send (r : Run σ) (e : Event) : Run σ :=
  { r with queue := (r.queue.send e).1, trail := e :: r.trail }

def log (r : Run σ) (line : String) : Run σ := r.send (.log line)

/-- The supervisor's notices since `r` come into the mailbox. -/
def withSupervision (r : Run σ) (s : Daemon.Supervision σ) : Run σ :=
  let fresh := s.notices.drop r.supervision.notices.length
  { r with supervision := s, notices := fresh.foldl (fun m n => m.post n.2) r.notices }

def withReconnect (r : Run σ) (c : Link.Reconnect) : Run σ :=
  { r with
    reconnect := c
    stateChanged := r.stateChanged || c.state != r.reconnect.state }

/-- What a subscription tells becomes an event; a lost connection is reported before. -/
def hear (r : Run σ) : Nat × SubscriptionDeed → Run σ
  | (_, .ask) => r
  | (id, .event e) =>
    match r.subscriptions.all[id]? with
    | some s => r.send (.stream s.key.subject e)
    | none => r
  | (id, .ended how) =>
    let r := match how with
      | .disconnected _ => { r with lost := r.lost + 1 }
      | _ => r
    match r.subscriptions.all[id]?, how.detail? with
    | some s, some detail => r.send (.ended s.key.subject s.key.kind detail)
    | _, _ => r

/-- What the subscriptions told since `r` is heard in order. -/
def withSubscriptions (r : Run σ) (m : Subscriptions) : Run σ :=
  let fresh := m.trail.take (m.trail.length - r.subscriptions.trail.length)
  fresh.reverse.foldl hear { r with subscriptions := m }

def unsubscribeEverything (r : Run σ) : Run σ :=
  r.withSubscriptions r.subscriptions.unsubscribeEverything.1

def markDisconnected (r : Run σ) : Run σ := r.withReconnect r.reconnect.markDisconnected

/-- An endpoint that is refused leaves the channel as it is. -/
def bind (r : Run σ) (d : Record) : Run σ := { r with channel := (r.channel.initFrom d).1 }

def projectKinds : List StreamKind := [.screen, .issues]

def subscribeProjects (r : Run σ) : Run σ :=
  (r.projects.flatMap fun p => projectKinds.map (StreamKey.mk p)).foldl
    (fun r key => r.withSubscriptions (r.subscriptions.subscribe key).1) r

def showState (r : Run σ) (shutdownSeen : Bool) : Run σ :=
  r.send (.overlay (.derive r.reconnect.state shutdownSeen))

/-- A daemon is there: from now on it is watched and the connection is kept. -/
def enterLoop (r : Run σ) (d : Record) : Run σ :=
  let r := { r.bind d with stateChanged := false }.showState false
  { r with stage := .looping, reconnect := r.reconnect.spawn, watch := some .called }

def close (r : Run σ) (exit : Exit) : Run σ :=
  let r := { r with watchCancelled := true, reconnect := r.reconnect.stop }
  { r.unsubscribeEverything with stage := .closing exit }

def secondsText (d : Duration) : String := String.ofList (Text.decimal d.secs)

def onNotice (r : Run σ) : Daemon.Notice → Run σ
  | .ready _ => r
  | .crashed pid =>
    r.unsubscribeEverything.markDisconnected.log
      ("daemon (pid " ++ toString pid.toNat ++ ") crashed, restarting")
  | .restarted d => (r.bind d).log ("daemon restarted at " ++ d.endpoint)
  | .restartFailed n e wait =>
    r.log ("restart attempt " ++ toString n ++ " failed (" ++ e.message ++ "), retrying in " ++
      secondsText wait ++ "s")
  | .abandoned n =>
    (r.log ("gave up restarting the daemon after " ++ toString n ++ " attempts")).close
      .restartAbandoned
  | .shutdown =>
    let r := { r with reconnect := r.reconnect.stop }.unsubscribeEverything.showState true
    { r with stage := .delaying (r.now + r.exitDelay) }

/-- One thing that has come up: an interruption first, then a notice of the supervisor, a change
of the connection, a lost stream. -/
def attend (r : Run σ) : Run σ :=
  if r.interrupted then r.close .interrupted
  else match r.notices.take? with
    | some (.message n, notices) => { r with notices }.onNotice n
    | some (.missed _, notices) => { r with notices }
    | none =>
      if r.stateChanged then { r with stateChanged := false }.showState false
      else if 0 < r.lost then { r with lost := r.lost - 1 }.markDisconnected
      else r

def othersEnded (r : Run σ) : Bool :=
  r.reconnect.loops.all (· == .finished) && r.watch.all fun
    | .ended _ => true
    | _ => false

def mainReady (r : Run σ) : Bool :=
  match r.stage with
  | .ensuring e => e.isReady r.now false
  | .looping => r.interrupted || !r.notices.isEmpty || r.stateChanged || decide (0 < r.lost)
  | .delaying due => r.interrupted || decide (due ≤ r.now)
  | .closing _ => r.othersEnded
  | .exited .. => false

def mainTurn (r : Run σ) : Run σ :=
  if !r.mainReady then r
  else match r.stage with
    | .ensuring e =>
      let (e, s) := e.turn r.supervisor r.supervision false
      let r := r.withSupervision s
      match e with
      | .done at_ (.error e) => { r with stage := .exited at_ (.error e) }
      | .done _ (.ok d) => r.enterLoop d
      | e => { r with stage := .ensuring e }
    | .looping => r.attend
    | .delaying _ => r.close .daemonShutdown
    | .closing exit => { r with stage := .exited r.now (.ok exit) }
    | .exited .. => r

def watchReady (r : Run σ) : Bool := r.watch.any fun w => w.isReady r.now r.watchCancelled

def watchTurn (r : Run σ) : Run σ :=
  match r.watch with
  | none => r
  | some w =>
    let (w, s) := w.turn r.supervisor r.supervision r.watchCancelled
    { r.withSupervision s with watch := some w }

def loopTurn (r : Run σ) : Run σ := r.withReconnect (r.reconnect.turn 0)

/-- The loop's acquisition has come to an end. Every new connection gets its own subscriptions. -/
def acquired (r : Run σ) (found : Option Record) : Run σ :=
  let r := match found with
    | some d =>
      if r.reconnect.stopped then r
      else (r.withReconnect (r.reconnect.connect d)).subscribeProjects
    | none => r
  r.withReconnect (r.reconnect.resume 0)

def pumpTurn (r : Run σ) (answer : Subscriptions.Answer) (id : Nat) : Run σ :=
  r.withSubscriptions (r.subscriptions.turn answer id)

def wakes (r : Run σ) : List Nat :=
  (match r.stage with
    | .ensuring e => e.due?.toList
    | .delaying due => [due]
    | _ => []) ++
  r.reconnect.wakes ++ (r.watch.bind (·.due?)).toList

/-- The clock shows `t`. -/
def moveTo (t : Nat) (r : Run σ) : Run σ :=
  { r with
    supervision := { r.supervision with now := t }
    reconnect := { r.reconnect with now := t } }

end Run

end Vigil.Shell
