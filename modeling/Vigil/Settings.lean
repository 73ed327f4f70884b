import Vigil.Daemon.Policy
import Vigil.Files.JsonFile
import Vigil.Home
import Vigil.Json.Reader
/-! The shell's settings: defaults, then a JSON file, then the environment. -/
namespace Vigil

structure Settings where
  /-- Blank means the usual place. -/
  descriptorPath : String := ""
  daemonBinary : String := ""
  startPollIntervalMs : UInt64 := 100
  startPollAttempts : UInt32 := 50
  watchIntervalMs : UInt64 := 2000
  reconnectIntervalMs : UInt64 := 3000
  restartCooldownMs : UInt64 := 5000
  restartCooldownMaxMs : UInt64 := 60000
  rpcTimeoutMs : UInt64 := 10000
  connectTimeoutMs : UInt64 := 2000
  shutdownExitDelayMs : UInt64 := 3000
deriving DecidableEq, Repr

namespace Settings

/-- How a setting is kept: a text as it is, or a number up to a limit. -/
inductive Slot where
  | text (get : Settings → String) (set : Settings → String → Settings)
  | number (limit : Nat) (get : Settings → Nat) (set : Settings → Nat → Settings)

structure Item where
  key : String
  envName : String
  slot : Slot

/-- Every setting with its key in the file and its variable, in the file's order. -/
def items : List Item := [
  ⟨"descriptor_path", "WATCHFIRE_DESCRIPTOR_PATH",
    .text (·.descriptorPath) fun s v => { s with descriptorPath := v }⟩,
  ⟨"daemon_binary", "WATCHFIRE_DAEMON_BINARY",
    .text (·.daemonBinary) fun s v => { s with daemonBinary := v }⟩,
  ⟨"start_poll_interval_ms", "WATCHFIRE_START_POLL_INTERVAL_MS",
    .number u64Max (·.startPollIntervalMs.toNat) fun s v =>
      { s with startPollIntervalMs := v.toUInt64 }⟩,
  ⟨"start_poll_attempts", "WATCHFIRE_START_POLL_ATTEMPTS",
    .number u32Max (·.startPollAttempts.toNat) fun s v =>
      { s with startPollAttempts := v.toUInt32 }⟩,
  ⟨"watch_interval_ms", "WATCHFIRE_WATCH_INTERVAL_MS",
    .number u64Max (·.watchIntervalMs.toNat) fun s v =>
      { s with watchIntervalMs := v.toUInt64 }⟩,
  ⟨"reconnect_interval_ms", "WATCHFIRE_RECONNECT_INTERVAL_MS",
    .number u64Max (·.reconnectIntervalMs.toNat) fun s v =>
      { s with reconnectIntervalMs := v.toUInt64 }⟩,
  ⟨"restart_cooldown_ms", "WATCHFIRE_RESTART_COOLDOWN_MS",
    .number u64Max (·.restartCooldownMs.toNat) fun s v =>
      { s with restartCooldownMs := v.toUInt64 }⟩,
  ⟨"restart_cooldown_max_ms", "WATCHFIRE_RESTART_COOLDOWN_MAX_MS",
    .number u64Max (·.restartCooldownMaxMs.toNat) fun s v =>
      { s with restartCooldownMaxMs := v.toUInt64 }⟩,
  ⟨"rpc_timeout_ms", "WATCHFIRE_RPC_TIMEOUT_MS",
    .number u64Max (·.rpcTimeoutMs.toNat) fun s v =>
      { s with rpcTimeoutMs := v.toUInt64 }⟩,
  ⟨"connect_timeout_ms", "WATCHFIRE_CONNECT_TIMEOUT_MS",
    .number u64Max (·.connectTimeoutMs.toNat) fun s v =>
      { s with connectTimeoutMs := v.toUInt64 }⟩,
  ⟨"shutdown_exit_delay_ms", "WATCHFIRE_SHUTDOWN_EXIT_DELAY_MS",
    .number u64Max (·.shutdownExitDelayMs.toNat) fun s v =>
      { s with shutdownExitDelayMs := v.toUInt64 }⟩]

def Slot.toJson (slot : Slot) (s : Settings) : Json.Value :=
  match slot with
  | .text get _ => .str (get s)
  | .number _ get _ => .int (get s)

def toJson (s : Settings) : Json.Value := .obj (items.map fun i => (i.key, i.slot.toJson s))

/-- A value of another kind or out of range is refused. -/
def Slot.setJson? (slot : Slot) (s : Settings) (v : Json.Value) : Option Settings :=
  match slot, v with
  | .text _ set, .str t => some (set s t)
  | .number limit _ set, .int n =>
    if 0 ≤ n && n ≤ limit then some (set s n.toNat) else none
  | _, _ => none

/-- Unknown keys are passed over; a known key may come once only. -/
def setFields? (seen : List String) (s : Settings) : List (String × Json.Value) → Option Settings
  | [] => some s
  | (key, v) :: rest =>
    match items.find? fun i => i.key == key with
    | none => setFields? seen s rest
    | some item =>
      if seen.contains key then none
      else do
        let s ← item.slot.setJson? s v
        setFields? (key :: seen) s rest

/-- Values by position, for as many settings as there are values. -/
def setItems? (s : Settings) : List Item → List Json.Value → Option Settings
  | _, [] => some s
  | [], _ :: _ => none
  | item :: items, v :: vs => do
    let s ← item.slot.setJson? s v
    setItems? s items vs

def ofJson? : Json.Value → Option Settings
  | .obj fields => setFields? [] {} fields
  | .arr values => setItems? {} items values
  | _ => none

/-- The settings of a file's bytes. -/
def ofBytes? (bytes : List UInt8) : Option Settings := do
  let s ← Utf8.decode? bytes
  let v ← Json.read? s
  ofJson? v

/-- A file that is missing or cannot be read as settings counts as empty. -/
def load (file : Option (List UInt8)) : Settings := (file.bind ofBytes?).getD {}

/-- Text is taken as it is. A number may have blanks around it; what is no number of the
setting is passed over. -/
def Slot.override (slot : Slot) (s : Settings) (value : String) : Settings :=
  match slot with
  | .text _ set => set s value
  | .number limit _ set =>
    match Text.unsigned? limit (Text.trim value.toList) with
    | some n => set s n
    | none => s

def overrideItem (env : String → Option String) (s : Settings) (i : Item) : Settings :=
  match env i.envName with
  | some value => i.slot.override s value
  | none => s

def override (env : String → Option String) (s : Settings) : Settings :=
  items.foldl (overrideItem env) s

def fileName : String := "shell-config.json"

def recordPath (s : Settings) (h : Home) : String :=
  if Text.isBlank s.descriptorPath then h.recordFile else h.expand (Text.trimmed s.descriptorPath)

def binaryPath (s : Settings) (h : Home) : Option String :=
  if Text.isBlank s.daemonBinary then none else some (h.expand (Text.trimmed s.daemonBinary))

/-- At least one look for the record, and no cap below the cool-down. -/
def policies (s : Settings) : Daemon.Policies where
  start := { pollInterval := .ofMillis s.startPollIntervalMs.toNat
             maxAttempts := max s.startPollAttempts.toNat 1 }
  watch := { interval := .ofMillis s.watchIntervalMs.toNat }
  restart := { cooldown := .ofMillis s.restartCooldownMs.toNat
               maxCooldown := .ofMillis (max s.restartCooldownMaxMs.toNat s.restartCooldownMs.toNat) }

def reconnectInterval (s : Settings) : Duration := .ofMillis s.reconnectIntervalMs.toNat
def rpcTimeout (s : Settings) : Duration := .ofMillis s.rpcTimeoutMs.toNat
def connectTimeout (s : Settings) : Duration := .ofMillis s.connectTimeoutMs.toNat
def shutdownExitDelay (s : Settings) : Duration := .ofMillis s.shutdownExitDelayMs.toNat

end Settings

end Vigil
