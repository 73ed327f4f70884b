import Vigil.Rehearsal.Turns
import Vigil.Streams.Subscriptions
/-! Subscriptions to streams whose other side is laid down. -/
namespace Vigil.Rehearsal

structure Streaming where
  subscriptions : Subscriptions := {}
  /-- Whether requests for streams have to wait. -/
  held : Bool := false
  /-- With what they are refused, if they are. -/
  refusal : Option Status := none
  /-- The streams granted so far with the subscriptions that read them, the oldest first. -/
  feeds : List (StreamKey × Nat) := []

namespace Streaming

def answer (s : Streaming) : Subscriptions.Answer :=
  if s.held then .later
  else match s.refusal with
    | some status => .refused status
    | none => .granted

/-- Goes on with the subscriptions after a turn of one of them; a request that came through has
its stream now. -/
def advance (s : Streaming) (id : Nat) (m : Subscriptions) : Streaming :=
  let pump (m : Subscriptions) := m.all[id]?.map (·.pump)
  let granted := pump s.subscriptions = some .opening ∧ pump m = some .reading
  let key := m.all[id]?.map (·.key)
  { s with
    subscriptions := m
    feeds := if granted then s.feeds ++ key.toList.map (·, id) else s.feeds }

/-- Brings items on a stream of a key, named by how many of the key were granted before it, or on
the newest. -/
def feed (s : Streaming) (key : StreamKey) (nth : Option Nat) (items : List StreamItem) : Streaming :=
  let readers := (s.feeds.filter (·.1 == key)).map (·.2)
  match readers[nth.getD (readers.length - 1)]? with
  | none => s
  | some id => { s with subscriptions := items.foldl (·.receive id ·) s.subscriptions }

/-- The streams asked for so far, the oldest first. -/
def opens (s : Streaming) : List StreamKey :=
  s.subscriptions.trail.reverse.filterMap fun
    | (id, .ask) => s.subscriptions.all[id]?.map (·.key)
    | _ => none

/-- What was told so far and to which subscription, the oldest first. -/
def told (s : Streaming) : List (Nat × SubscriptionDeed) :=
  (s.subscriptions.trail.filter fun d => d.2 != .ask).reverse

def cast : Cast Streaming Nat where
  tasks s := List.range s.subscriptions.all.length
  isReady s := s.subscriptions.isReady s.answer
  turn id s := s.advance id (s.subscriptions.turn s.answer id)
  now _ := 0
  moveTo _ s := s
  wakes _ := []

/-- A single subscription from its start to the end of what its stream brings. -/
def followed (key : StreamKey) (opened : Except Status (List StreamItem)) : Streaming :=
  let (m, _) := ({} : Subscriptions).subscribe key
  match opened with
  | .error status => (cast.settle ⟨{ subscriptions := m, refusal := some status }, []⟩).state
  | .ok items =>
    let g := cast.settle ⟨{ subscriptions := m }, []⟩
    (cast.settle { g with state := g.state.feed key none (items ++ [.close]) }).state

end Streaming

end Vigil.Rehearsal
