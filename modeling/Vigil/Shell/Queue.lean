import Vigil.Shell.Event
/-! The bounded queue between the background tasks and the one that draws. -/
namespace Vigil.Shell

structure Queue where
  /-- How many events may wait; one may always. -/
  limit : Nat
  /-- The events that wait, the oldest first. -/
  events : List Event := []
  /-- Whether a wake-up waits to be taken. -/
  notified : Bool := false
deriving DecidableEq, Repr

namespace Queue

def ofLimit (n : Nat) : Queue := { limit := max n 1 }

/-- Puts a frame in the place of the queued frame of its project, if there is one. -/
def coalesce? (event : Event) : List Event → Option (List Event)
  | [] => none
  | e :: rest =>
    if event.screenOf?.isSome ∧ e.screenOf? = event.screenOf? then some (event :: rest)
    else (coalesce? event rest).map (e :: ·)

/-- Frees a place in a full queue: the first log line goes, else the oldest event; but a log line
displaces log lines only. -/
def makeRoom? (event : Event) (queued : List Event) : Option (List Event) :=
  if queued.any Event.isLog then some (queued.eraseP Event.isLog)
  else if event.isLog then none
  else some (queued.drop 1)

/-- Queues the event and says whether it is the newest in the queue now. An event that comes to an
empty queue leaves a wake-up. -/
def send (q : Queue) (event : Event) : Queue × Bool :=
  match coalesce? event q.events with
  | some events => ({ q with events }, false)
  | none =>
    let room := if q.limit ≤ q.events.length then makeRoom? event q.events else some q.events
    match room with
    | none => (q, false)
    | some events =>
      ({ q with events := events ++ [event], notified := q.notified || q.events.isEmpty }, true)

def log (q : Queue) (line : String) : Queue := (q.send (.log line)).1

def drain (q : Queue) : Queue × List Event := ({ q with events := [] }, q.events)

/-- Takes the wake-up, if one waits. -/
def takeNotice (q : Queue) : Queue × Bool := ({ q with notified := false }, q.notified)

end Queue

end Vigil.Shell
