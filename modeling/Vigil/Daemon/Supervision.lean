import Vigil.Daemon.Policy
import Vigil.Daemon.Session
/-! A supervisor's surroundings, and the trail of all it asks of them and does. -/
namespace Vigil.Daemon

/-- What a supervisor can ask and do in surroundings of state `σ`. -/
structure Surroundings (σ : Type) where
  isAlive : σ → UInt32 → Bool
  /-- The record of a daemon that is alive. -/
  live : σ → Option Record
  /-- The record, whoever left it. -/
  left : σ → Option Record
  binaryName : String
  find : σ → Option String
  /-- Starts the executable; if that fails, gives the reason. -/
  launch : σ → String → σ × Option String

inductive Deed where
  | probe (pid : UInt32) (alive : Bool)
  | readLive (found : Option Record)
  | readLeft (found : Option Record)
  | find (path : Option String)
  | launch (path : String) (failure : Option String)
  | write (session : Session)
  | tell (notice : Notice)
deriving DecidableEq

/-- The state of a supervisor at an instant, in nanoseconds since the start. -/
structure Supervision (σ : Type) where
  world : σ
  now : Nat := 0
  session : Session := {}
  /-- Every deed with its instant, the newest first. -/
  trail : List (Nat × Deed) := []

structure Supervisor (σ : Type) where
  surroundings : Surroundings σ
  policies : Policies

variable {σ : Type}

namespace Supervision

def note (s : Supervision σ) (d : Deed) : Supervision σ := { s with trail := (s.now, d) :: s.trail }

def tell (s : Supervision σ) (n : Notice) : Supervision σ := s.note (.tell n)

def write (s : Supervision σ) (session : Session) : Supervision σ :=
  { s with session }.note (.write session)

/-- The notices told so far with their instants, the oldest first. -/
def notices (s : Supervision σ) : List (Nat × Notice) :=
  s.trail.reverse.filterMap fun
    | (at_, .tell n) => some (at_, n)
    | _ => none

/-- The launches so far with their instants, the oldest first. -/
def launches (s : Supervision σ) : List (Nat × String) :=
  s.trail.reverse.filterMap fun
    | (at_, .launch path _) => some (at_, path)
    | _ => none

end Supervision

namespace Supervisor

variable (v : Supervisor σ) (s : Supervision σ)

def probe (pid : UInt32) : Bool × Supervision σ :=
  let alive := v.surroundings.isAlive s.world pid
  (alive, s.note (.probe pid alive))

def readLive : Option Record × Supervision σ :=
  let found := v.surroundings.live s.world
  (found, s.note (.readLive found))

def readLeft : Option Record × Supervision σ :=
  let found := v.surroundings.left s.world
  (found, s.note (.readLeft found))

def find : Option String × Supervision σ :=
  let path := v.surroundings.find s.world
  (path, s.note (.find path))

def launch (path : String) : Option String × Supervision σ :=
  let (world, failure) := v.surroundings.launch s.world path
  (failure, { s with world }.note (.launch path failure))

/-- How far the search for a live daemon has come. -/
inductive Progress where
  | found (r : Record)
  | failed (e : StartError)
  /-- The next look for the record, and when it is due. -/
  | polling (look due : Nat)

/-- Waits before a look, unless the looks are used up. -/
def await (look : Nat) : Progress :=
  if v.policies.start.maxAttempts < look then .failed (.startTimeout v.policies.start.budget)
  else .polling look (s.now + v.policies.start.pollInterval.nanos)

/-- A daemon that is alive is taken as it is; otherwise one is launched. -/
def begin : Progress × Supervision σ :=
  match v.readLive s with
  | (some r, s) => (.found r, s)
  | (none, s) =>
    let s := if s.session.phase = .restarting then s
      else s.write { s.session with phase := .starting }
    match v.find s with
    | (none, s) => (.failed (.daemonNotFound v.surroundings.binaryName), s)
    | (some path, s) =>
      match v.launch s path with
      | (some reason, s) => (.failed (.launch path reason), s)
      | (none, s) => (v.await s 1, s)

/-- Looks for the record after a launch. -/
def look (n : Nat) : Progress × Supervision σ :=
  match v.readLive s with
  | (some r, s) => (.found r, s)
  | (none, s) => (v.await s (n + 1), s)

end Supervisor

end Vigil.Daemon
