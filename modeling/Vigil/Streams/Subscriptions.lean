import Vigil.Streams.Basic
/-! Subscriptions to streams: at most one that lives for each subject and kind. -/
namespace Vigil

structure StreamKey where
  subject : String
  kind : StreamKind
deriving DecidableEq, Repr

/-- What a stream brings next. -/
inductive StreamItem where
  | event (e : StreamEvent)
  | error (s : Status)
  | close
deriving DecidableEq, Repr

/-- How far the task behind a subscription is. -/
inductive Pump where
  | called
  | opening
  | reading
  | done
deriving DecidableEq, Repr

structure Subscription where
  key : StreamKey
  cancelled : Bool := false
  /-- Whether its end is still to be told. -/
  live : Bool := true
  pump : Pump := .called
  /-- What the stream brought that has not been read, the oldest first. -/
  inbox : List StreamItem := []
deriving DecidableEq, Repr

inductive SubscriptionDeed where
  /-- The stream is asked for. -/
  | ask
  | event (e : StreamEvent)
  | ended (how : StreamEnd)
deriving DecidableEq, Repr

structure Subscriptions where
  /-- All there ever were, each under its number. -/
  all : List Subscription := []
  /-- The numbers of those that are registered. -/
  handles : List (StreamKey × Nat) := []
  /-- Every deed with the subscription's number, the newest first. -/
  trail : List (Nat × SubscriptionDeed) := []
deriving DecidableEq, Repr

namespace Subscriptions

def note (m : Subscriptions) (id : Nat) (d : SubscriptionDeed) : Subscriptions :=
  { m with trail := (id, d) :: m.trail }

def update (m : Subscriptions) (id : Nat) (f : Subscription → Subscription) : Subscriptions :=
  { m with all := m.all.modify id f }

def size (m : Subscriptions) : Nat := m.handles.length

def isActive (m : Subscriptions) (key : StreamKey) : Bool := (m.handles.lookup key).isSome

def isLive (m : Subscriptions) (id : Nat) : Bool := m.all[id]?.any (·.live)

def isCancelled (m : Subscriptions) (id : Nat) : Bool := m.all[id]?.any (·.cancelled)

/-- The end is told once. -/
def tellEnd (m : Subscriptions) (id : Nat) (how : StreamEnd) : Subscriptions :=
  if m.isLive id then (m.update id ({ · with live := false })).note id (.ended how) else m

def cancel (m : Subscriptions) (id : Nat) : Subscriptions := m.update id ({ · with cancelled := true })

/-- Ends a subscription that has lost its registration. -/
def teardown (m : Subscriptions) (id : Nat) : Subscriptions := (m.cancel id).tellEnd id .cancelled

/-- Takes the registrations that match away and ends their subscriptions; says how many. -/
def remove (m : Subscriptions) (p : StreamKey → Bool) : Subscriptions × Nat :=
  let (gone, kept) := m.handles.partition fun h => p h.1
  (gone.foldl (fun m h => m.teardown h.2) { m with handles := kept }, gone.length)

def unsubscribe (m : Subscriptions) (key : StreamKey) : Subscriptions × Bool :=
  let (m, n) := m.remove (· == key)
  (m, n != 0)

def unsubscribeAll (m : Subscriptions) (subject : String) : Subscriptions × Nat :=
  m.remove (·.subject == subject)

def unsubscribeEverything (m : Subscriptions) : Subscriptions × Nat := m.remove fun _ => true

/-- Registers a subscription in the place of the one under its key, and gives its number. -/
def subscribe (m : Subscriptions) (key : StreamKey) : Subscriptions × Nat :=
  let id := m.all.length
  let (m, _) := m.remove (· == key)
  ({ m with all := m.all ++ [{ key }], handles := m.handles ++ [(key, id)] }, id)

/-- The task ends; it takes its own registration away, but not that of a successor. -/
def finish (m : Subscriptions) (id : Nat) (how : StreamEnd) : Subscriptions :=
  let m := { m with handles := m.handles.filter (·.2 != id) }
  (m.update id ({ · with pump := .done, inbox := [] })).tellEnd id how

/-- What is brought when nobody reads any more is lost, and so is what comes behind a close. -/
def receive (m : Subscriptions) (id : Nat) (item : StreamItem) : Subscriptions :=
  m.update id fun s =>
    if s.pump = .reading ∧ .close ∉ s.inbox then { s with inbox := s.inbox ++ [item] } else s

/-- What the other side says to a request for a stream. -/
inductive Answer where
  | later
  | granted
  | refused (s : Status)
deriving DecidableEq, Repr

def isReady (m : Subscriptions) (answer : Answer) (id : Nat) : Bool :=
  m.all[id]?.any fun s =>
    match s.pump with
    | .called => true
    | .opening => s.cancelled || answer != .later
    | .reading => s.cancelled || !s.inbox.isEmpty
    | .done => false

/-- Goes on to the next wait or the next item. A cancellation comes before all else. -/
def turn (m : Subscriptions) (answer : Answer) (id : Nat) : Subscriptions :=
  match m.all[id]? with
  | none => m
  | some s =>
    match s.pump with
    | .done => m
    | .called =>
      if s.cancelled then m.finish id .cancelled
      else (m.update id ({ · with pump := .opening })).note id .ask
    | .opening =>
      if s.cancelled then m.finish id .cancelled
      else match answer with
        | .later => m
        | .granted => m.update id ({ · with pump := .reading })
        | .refused status => m.finish id (.ofStatus status)
    | .reading =>
      if s.cancelled then m.finish id .cancelled
      else match s.inbox with
        | [] => m
        | .event e :: rest =>
          if s.live then (m.update id ({ · with inbox := rest })).note id (.event e)
          else m.finish id .cancelled
        | .error status :: _ => m.finish id (.ofStatus status)
        | .close :: _ => m.finish id .completed

end Subscriptions

end Vigil
