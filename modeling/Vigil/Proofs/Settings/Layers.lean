import Mathlib
import Vigil.Proofs.Json.Printed
import Vigil.Proofs.Settings.Slots
import Vigil.Proofs.Text.Utf8

/-! Settings in three layers: each comes from its own variable, else from its own field of the
file, else from the defaults. -/
namespace Vigil.Settings

variable {s s' : Settings} {i : Item}

abbrev Fields := List (String × Json.Value)

variable {fs : Fields} {seen : List String}

/-! ### The file -/

def isKnown (key : String) : Bool := items.any (·.key == key)

/-- The fields that are settings. -/
def known (fs : Fields) : Fields := fs.filter fun f => isKnown f.1

/-- Every setting is given once at most, and with a value it can take. -/
structure Fits (fs : Fields) : Prop where
  once : ((known fs).map Prod.fst).Nodup
  accepted : ∀ f ∈ known fs, ∀ i ∈ items, i.key = f.1 → i.slot.Accepts f.2

instance (fs : Fields) : Decidable (Fits fs) :=
  decidable_of_iff _ ⟨fun h => ⟨h.1, h.2⟩, fun h => And.intro h.once h.accepted⟩

theorem isKnown_item (h : i ∈ items) : isKnown i.key = true := by
  simpa [isKnown] using ⟨i, h, rfl⟩

theorem find?_unknown {key : String} (h : isKnown key = false) :
    (items.find? fun i => i.key == key) = none := by
  simpa [isKnown] using h

theorem key_beq_unknown {key : String} (hi : i ∈ items) (h : isKnown key = false) :
    (i.key == key) = false := by
  rw [beq_eq_false_iff_ne]
  rintro rfl
  rw [isKnown_item hi] at h
  cases h

theorem known_cons_unknown {key : String} (h : isKnown key = false) (v : Json.Value)
    (fs : Fields) : known ((key, v) :: fs) = known fs := by
  simp [known, h]

theorem known_cons_item (h : i ∈ items) (v : Json.Value) (fs : Fields) :
    known ((i.key, v) :: fs) = (i.key, v) :: known fs := by
  simp [known, isKnown_item h]

theorem exists_item {key : String} (h : isKnown key = true) : ∃ i ∈ items, i.key = key := by
  simpa [isKnown] using h

theorem fits_congr {fs' : Fields} (h : known fs = known fs') : Fits fs ↔ Fits fs' :=
  ⟨fun hf => ⟨h ▸ hf.once, h ▸ hf.accepted⟩, fun hf => ⟨h ▸ hf.once, h ▸ hf.accepted⟩⟩

theorem fits_cons_item (h : i ∈ items) {v : Json.Value} : Fits ((i.key, v) :: fs) ↔
    i.slot.Accepts v ∧ i.key ∉ (known fs).map Prod.fst ∧ Fits fs := by
  refine ⟨fun ⟨honce, haccepted⟩ => ?_, fun ⟨hv, hnot, honce, haccepted⟩ => ?_⟩
  · rw [known_cons_item h] at honce haccepted
    obtain ⟨hnot, honce⟩ := List.nodup_cons.mp honce
    rw [List.forall_mem_cons] at haccepted
    exact ⟨haccepted.1 i h rfl, hnot, honce, haccepted.2⟩
  · refine ⟨?_, ?_⟩ <;> rw [known_cons_item h]
    · exact List.nodup_cons.mpr ⟨hnot, honce⟩
    · refine List.forall_mem_cons.mpr ⟨fun j hj hkey => ?_, haccepted⟩
      rwa [items_inj hj h hkey]

theorem lookup_unknown (h : i ∈ items) (hnot : i.key ∉ (known fs).map Prod.fst) :
    fs.lookup i.key = none := by
  rw [List.lookup_eq_none_iff]
  intro f hf
  rw [bne_iff_ne]
  intro hkey
  exact hnot (List.mem_map.mpr ⟨f, List.mem_filter.mpr ⟨hf, hkey ▸ isKnown_item h⟩, hkey.symm⟩)

/-- The settings are those that the fields give, and the others are as before. -/
def Holds (fs : Fields) (s s' : Settings) : Prop :=
  ∀ i ∈ items, i.slot.toJson s' = (fs.lookup i.key).getD (i.slot.toJson s)

theorem setFields?_of_fits (h : Fits fs) (hseen : ∀ key ∈ seen, key ∉ (known fs).map Prod.fst)
    (s : Settings) : ∃ s', setFields? seen s fs = some s' ∧ Holds fs s s' := by
  induction fs generalizing seen s with
  | nil => exact ⟨s, rfl, fun i _ => rfl⟩
  | cons f fs ih =>
    obtain ⟨key, v⟩ := f
    cases hknown : isKnown key with
    | false =>
      have hsame := known_cons_unknown hknown v fs
      rw [hsame] at hseen
      obtain ⟨s', hset, hholds⟩ := ih ((fits_congr hsame).mp h) hseen s
      refine ⟨s', by simpa [setFields?, find?_unknown hknown] using hset, fun i hi => ?_⟩
      rw [hholds i hi, List.lookup_cons, key_beq_unknown hi hknown]
    | true =>
      obtain ⟨i, hi, rfl⟩ := exists_item hknown
      obtain ⟨hv, hnot, hfits⟩ := (fits_cons_item hi).mp h
      rw [known_cons_item hi] at hseen
      -- what was seen does not come again, so no field is turned away for being there twice
      have hnew : i.key ∉ seen := fun hmem => hseen _ hmem (by simp)
      have hseen' : ∀ key ∈ i.key :: seen, key ∉ (known fs).map Prod.fst := by
        refine List.forall_mem_cons.mpr ⟨hnot, fun key hmem hin => hseen key hmem ?_⟩
        exact List.mem_cons_of_mem _ hin
      obtain ⟨s₁, hput, hheld, hothers⟩ := (items_lawful hi).put (s := s) hv
      obtain ⟨s', hset, hholds⟩ := ih hfits hseen' s₁
      refine ⟨s', by simp [setFields?, find?_item hi, hnew, hput, hset], fun j hj => ?_⟩
      rw [hholds j hj]
      by_cases hkey : j.key = i.key
      · obtain rfl := items_inj hj hi hkey
        simp [lookup_unknown hj hnot, hheld]
      · rw [List.lookup_cons, beq_eq_false_iff_ne.mpr hkey, hothers j hj hkey]

theorem setFields?_default_of_fits (h : Fits fs) :
    ∃ s', setFields? [] {} fs = some s' ∧ Holds fs {} s' :=
  setFields?_of_fits h (by simp) {}

theorem fits_of_setFields? (h : setFields? seen s fs = some s') :
    Fits fs ∧ ∀ key ∈ seen, key ∉ (known fs).map Prod.fst := by
  induction fs generalizing seen s with
  | nil => exact ⟨⟨List.nodup_nil, by simp [known]⟩, by simp [known]⟩
  | cons f fs ih =>
    obtain ⟨key, v⟩ := f
    cases hknown : isKnown key with
    | false =>
      have hsame := known_cons_unknown hknown v fs
      rw [fits_congr hsame, hsame]
      exact ih (by simpa [setFields?, find?_unknown hknown] using h)
    | true =>
      obtain ⟨i, hi, rfl⟩ := exists_item hknown
      rw [fits_cons_item hi, known_cons_item hi]
      by_cases hnew : i.key ∈ seen
      · simp [setFields?, find?_item hi, hnew] at h
      · by_cases hv : i.slot.Accepts v
        · obtain ⟨s₁, hput, -⟩ := (items_lawful hi).put (s := s) hv
          have hrest : setFields? (i.key :: seen) s₁ fs = some s' := by
            simpa [setFields?, find?_item hi, hnew, hput] using h
          obtain ⟨hfits, hseen⟩ := ih hrest
          rw [List.forall_mem_cons] at hseen
          refine ⟨⟨hv, hseen.1, hfits⟩, fun key hmem => ?_⟩
          rw [List.map_cons, List.mem_cons, not_or]
          exact ⟨by rintro rfl; exact hnew hmem, hseen.2 key hmem⟩
        · simp [setFields?, find?_item hi, hnew, Slot.setJson?_of_not_accepts hv] at h

theorem ofJson?_obj_of_not_fits (h : ¬Fits fs) : ofJson? (.obj fs) = none := by
  cases hset : ofJson? (.obj fs) with
  | none => rfl
  | some s => exact absurd (fits_of_setFields? hset).1 h

theorem lookup_eq_some_iff (h : Fits fs) (hi : i ∈ items) {v : Json.Value} :
    fs.lookup i.key = some v ↔ (i.key, v) ∈ known fs := by
  induction fs with
  | nil => simp [known]
  | cons f fs ih =>
    obtain ⟨key, w⟩ := f
    cases hknown : isKnown key with
    | false =>
      have hsame := known_cons_unknown hknown w fs
      rw [List.lookup_cons, key_beq_unknown hi hknown, hsame]
      exact ih ((fits_congr hsame).mp h)
    | true =>
      obtain ⟨j, hj, rfl⟩ := exists_item hknown
      obtain ⟨-, hnot, hfits⟩ := (fits_cons_item hj).mp h
      rw [known_cons_item hj, List.mem_cons, ← ih hfits, List.lookup_cons]
      by_cases hkey : i.key = j.key
      · obtain rfl := items_inj hi hj hkey
        simp [lookup_unknown hi hnot, eq_comm]
      · simp [hkey, beq_eq_false_iff_ne.mpr hkey]

theorem Fits.perm {fs' : Fields} (h : Fits fs) (hperm : (known fs).Perm (known fs')) : Fits fs' :=
  ⟨(hperm.map Prod.fst).nodup_iff.mp h.once, fun f hf => h.accepted f (hperm.mem_iff.mpr hf)⟩

/-- Neither the order of the fields nor a field that is no setting makes a difference. -/
theorem ofJson?_obj_perm {fs' : Fields} (hperm : (known fs).Perm (known fs')) :
    ofJson? (.obj fs) = ofJson? (.obj fs') := by
  by_cases h : Fits fs
  · have h' := h.perm hperm
    obtain ⟨s, hs, hholds⟩ := setFields?_default_of_fits h
    obtain ⟨s', hs', hholds'⟩ := setFields?_default_of_fits h'
    have hsame : s = s' := by
      refine ext_items fun i hi => ?_
      have hlookup : fs.lookup i.key = fs'.lookup i.key := by
        ext v
        rw [lookup_eq_some_iff h hi, lookup_eq_some_iff h' hi, hperm.mem_iff]
      rw [hholds i hi, hholds' i hi, hlookup]
    rw [ofJson?, ofJson?, hs, hs', hsame]
  · have h' : ¬Fits fs' := fun h' => h (h'.perm hperm.symm)
    rw [ofJson?_obj_of_not_fits h, ofJson?_obj_of_not_fits h']

/-- The value that a file's text holds. -/
def valueOf? (file : Option (List UInt8)) : Option Json.Value :=
  (file.bind Utf8.decode?).bind Json.read?

/-- The fields that count: none unless the file is an object with all its settings in order. -/
def fieldsOf (file : Option (List UInt8)) : Fields :=
  match valueOf? file with
  | some (.obj fs) => if Fits fs then fs else []
  | _ => []

theorem load_eq (file : Option (List UInt8)) :
    load file = ((valueOf? file).bind ofJson?).getD {} := by
  cases file with
  | none => rfl
  | some bytes => simp [load, valueOf?, ofBytes?, Option.bind_assoc]

theorem load_holds {file : Option (List UInt8)} (h : ∀ xs, valueOf? file ≠ some (.arr xs)) :
    Holds (fieldsOf file) {} (load file) := by
  have hnone : Holds [] {} {} := fun i _ => rfl
  rw [load_eq, fieldsOf]
  cases hvalue : valueOf? file with
  | none => exact hnone
  | some v =>
    cases v with
    | obj fs =>
      by_cases hfits : Fits fs
      · obtain ⟨s, hs, hholds⟩ := setFields?_default_of_fits hfits
        simpa [ofJson?, hs, hfits] using hholds
      · simpa [ofJson?_obj_of_not_fits hfits, hfits] using hnone
    | arr xs => exact absurd hvalue (h xs)
    | _ => exact hnone

/-! ### The environment -/

/-- What a variable says of a number. -/
def numberOf? (limit : Nat) (value : String) : Option Nat :=
  Text.unsigned? limit (Text.trim value.toList)

def Slot.ofText? (slot : Slot) (value : String) : Option Json.Value :=
  match slot with
  | .text _ _ => some (.str value)
  | .number limit _ _ => (numberOf? limit value).map fun n : Nat => .int n

theorem Slot.accepts_of_ofText? {slot : Slot} {value : String} {v : Json.Value}
    (h : slot.ofText? value = some v) : slot.Accepts v := by
  cases slot with
  | text get set => exact accepts_text_iff.mpr ⟨value, (Option.some.inj h).symm⟩
  | number limit get set =>
    obtain ⟨n, hn, rfl⟩ := Option.map_eq_some_iff.mp h
    exact accepts_number_iff.mpr ⟨n, Text.unsigned?_le hn, rfl⟩

theorem Slot.override_eq (slot : Slot) (s : Settings) (value : String) :
    slot.override s value = ((slot.ofText? value).bind (slot.setJson? s)).getD s := by
  cases slot with
  | text get set => rfl
  | number limit get set =>
    simp only [Slot.override, Slot.ofText?, numberOf?]
    cases hn : Text.unsigned? limit (Text.trim value.toList) with
    | none => rfl
    | some n => simp [Slot.setJson?, Text.unsigned?_le hn]

/-- What the environment says of a setting. -/
def fromEnv? (env : String → Option String) (i : Item) : Option Json.Value :=
  (env i.envName).bind i.slot.ofText?

variable {env : String → Option String} {j : Item}

theorem overrideItem_eq (env : String → Option String) (s : Settings) (i : Item) :
    overrideItem env s i = ((fromEnv? env i).bind (i.slot.setJson? s)).getD s := by
  rw [overrideItem, fromEnv?]
  cases env i.envName with
  | none => rfl
  | some value => exact i.slot.override_eq s value

theorem overrideItem_item (hi : i ∈ items) (hj : j ∈ items) :
    j.slot.toJson (overrideItem env s i) =
      if j.key = i.key then (fromEnv? env j).getD (j.slot.toJson s) else j.slot.toJson s := by
  rw [overrideItem_eq]
  cases hv : fromEnv? env i with
  | none =>
    split
    · next hkey => simp [items_inj hj hi hkey, hv]
    · rfl
  | some v =>
    obtain ⟨value, -, hvalue⟩ := Option.bind_eq_some_iff.mp hv
    obtain ⟨s', hput, hheld, hothers⟩ :=
      (items_lawful hi).put (s := s) (Slot.accepts_of_ofText? hvalue)
    rw [Option.bind_some, hput, Option.getD_some]
    split
    · next hkey => rw [items_inj hj hi hkey, hv, hheld, Option.getD_some]
    · next hne => exact hothers j hj hne

/-- Along a list of settings each takes its own variable. -/
theorem foldl_overrideItem {l : List Item} (hl : ∀ i ∈ l, i ∈ items) (hj : j ∈ items)
    (s : Settings) : j.slot.toJson (l.foldl (overrideItem env) s) =
      if j.key ∈ l.map (·.key) then (fromEnv? env j).getD (j.slot.toJson s)
      else j.slot.toJson s := by
  induction l generalizing s with
  | nil => simp
  | cons i l ih =>
    rw [List.foldl_cons, ih (fun k hk => hl k (List.mem_cons_of_mem _ hk)),
      overrideItem_item (hl i List.mem_cons_self) hj]
    by_cases hkey : j.key = i.key
    · cases fromEnv? env j <;> simp [hkey]
    · simp [hkey]

theorem override_item (h : i ∈ items) :
    i.slot.toJson (override env s) = (fromEnv? env i).getD (i.slot.toJson s) := by
  rw [override, foldl_overrideItem (fun i hi => hi) h, if_pos (List.mem_map_of_mem h)]

theorem override_override (env : String → Option String) (s : Settings) :
    override env (override env s) = override env s := by
  refine ext_items fun i hi => ?_
  rw [override_item hi, override_item hi]
  cases fromEnv? env i <;> rfl

/-! ### Every setting by its names -/

def asText? : Json.Value → Option String
  | .str t => some t
  | _ => none

def asNumber? : Json.Value → Option Nat
  | .int n => some n.toNat
  | _ => none

/-- A text is the variable's, else the field's, else the default. -/
def textIn (fs : Fields) (env : String → Option String) (key var default : String) : String :=
  (env var).getD (((fs.lookup key).bind asText?).getD default)

/-- A number is the variable's if that is one up to the limit, else the field's, else the
default. -/
def numberIn (limit : Nat) (fs : Fields) (env : String → Option String) (key var : String)
    (default : Nat) : Nat :=
  ((env var).bind (numberOf? limit)).getD (((fs.lookup key).bind asNumber?).getD default)

structure Layered (fs : Fields) (env : String → Option String) (s : Settings) : Prop where
  descriptorPath : s.descriptorPath =
    textIn fs env "descriptor_path" "WATCHFIRE_DESCRIPTOR_PATH" ""
  daemonBinary : s.daemonBinary = textIn fs env "daemon_binary" "WATCHFIRE_DAEMON_BINARY" ""
  startPollIntervalMs : s.startPollIntervalMs.toNat = numberIn u64Max fs env
    "start_poll_interval_ms" "WATCHFIRE_START_POLL_INTERVAL_MS" 100
  startPollAttempts : s.startPollAttempts.toNat = numberIn u32Max fs env
    "start_poll_attempts" "WATCHFIRE_START_POLL_ATTEMPTS" 50
  watchIntervalMs : s.watchIntervalMs.toNat = numberIn u64Max fs env
    "watch_interval_ms" "WATCHFIRE_WATCH_INTERVAL_MS" 2000
  reconnectIntervalMs : s.reconnectIntervalMs.toNat = numberIn u64Max fs env
    "reconnect_interval_ms" "WATCHFIRE_RECONNECT_INTERVAL_MS" 3000
  restartCooldownMs : s.restartCooldownMs.toNat = numberIn u64Max fs env
    "restart_cooldown_ms" "WATCHFIRE_RESTART_COOLDOWN_MS" 5000
  restartCooldownMaxMs : s.restartCooldownMaxMs.toNat = numberIn u64Max fs env
    "restart_cooldown_max_ms" "WATCHFIRE_RESTART_COOLDOWN_MAX_MS" 60000
  rpcTimeoutMs : s.rpcTimeoutMs.toNat = numberIn u64Max fs env
    "rpc_timeout_ms" "WATCHFIRE_RPC_TIMEOUT_MS" 10000
  connectTimeoutMs : s.connectTimeoutMs.toNat = numberIn u64Max fs env
    "connect_timeout_ms" "WATCHFIRE_CONNECT_TIMEOUT_MS" 2000
  shutdownExitDelayMs : s.shutdownExitDelayMs.toNat = numberIn u64Max fs env
    "shutdown_exit_delay_ms" "WATCHFIRE_SHUTDOWN_EXIT_DELAY_MS" 3000

theorem text_of_layers {key var default text : String}
    (h : Json.Value.str text = ((env var).bind fun value => some (.str value)).getD
      ((fs.lookup key).getD (.str default))) : text = textIn fs env key var default := by
  unfold textIn
  cases hvar : env var with
  | some value => simpa [hvar] using h
  | none =>
    cases hfield : fs.lookup key with
    | none => simpa [hvar, hfield] using h
    | some v =>
      obtain rfl : Json.Value.str text = v := by simpa [hvar, hfield] using h
      rfl

theorem number_of_layers {limit n default : Nat} {key var : String}
    (h : Json.Value.int n = ((env var).bind fun value =>
      (numberOf? limit value).map fun n : Nat => Json.Value.int n).getD
      ((fs.lookup key).getD (.int default))) : n = numberIn limit fs env key var default := by
  have hvar : ((env var).bind fun value => (numberOf? limit value).map fun n : Nat =>
      Json.Value.int n) = ((env var).bind (numberOf? limit)).map fun n : Nat => .int n := by
    cases env var <;> rfl
  rw [hvar] at h
  unfold numberIn
  cases hnumber : (env var).bind (numberOf? limit) with
  | some m => simpa [hnumber] using h
  | none =>
    cases hfield : fs.lookup key with
    | none => simpa [hnumber, hfield] using h
    | some v =>
      obtain rfl : Json.Value.int n = v := by simpa [hnumber, hfield] using h
      rfl

theorem layered_of_items (h : ∀ i ∈ items, i.slot.toJson s = (fromEnv? env i).getD
    ((fs.lookup i.key).getD (i.slot.toJson {}))) : Layered fs env s := by
  simp only [items, List.forall_mem_cons, fromEnv?, Slot.ofText?, Slot.toJson] at h
  obtain ⟨h₁, h₂, h₃, h₄, h₅, h₆, h₇, h₈, h₉, h₁₀, h₁₁, -⟩ := h
  exact ⟨text_of_layers h₁, text_of_layers h₂, number_of_layers h₃, number_of_layers h₄,
    number_of_layers h₅, number_of_layers h₆, number_of_layers h₇, number_of_layers h₈,
    number_of_layers h₉, number_of_layers h₁₀, number_of_layers h₁₁⟩

/-- In every file that is no JSON array, or is missing or unreadable, and in every environment, a
setting is what its variable says, else what its field says if the file is an object with all its
settings in order, else the default. A variable gives a number exactly if it is a numeral up to
the limit with nothing but blanks around it. The order of the fields and fields that are no settings
do not count, no setting takes anything from the variable of another, and the environment counts
once. -/
theorem settings_in_layers (file : Option (List UInt8)) (env : String → Option String)
    (hfile : ∀ xs, valueOf? file ≠ some (.arr xs)) :
    Layered (fieldsOf file) env (override env (load file)) ∧
    (∀ limit value n, numberOf? limit value = some n ↔
      Text.Numeral (Text.trim value.toList) n ∧ n ≤ limit) ∧
    (∀ file' fs fs', valueOf? file = some (.obj fs) → valueOf? file' = some (.obj fs') →
      (known fs).Perm (known fs') → load file' = load file) ∧
    (∀ s, ∀ i ∈ items, ∀ env', env' i.envName = env i.envName →
      i.slot.toJson (override env' s) = i.slot.toJson (override env s)) ∧
    ∀ s, override env (override env s) = override env s := by
  refine ⟨layered_of_items fun i hi => ?_, fun limit value n => Text.unsigned?_eq_some_iff,
    fun file' fs fs' hfs hfs' hperm => ?_, fun s i hi env' henv => ?_, override_override env⟩
  · rw [override_item hi, load_holds hfile i hi]
  · rw [load_eq, load_eq, hfs, hfs', Option.bind_some, Option.bind_some, ofJson?_obj_perm hperm]
  · rw [override_item hi, override_item hi, fromEnv?, fromEnv?, henv]

/-- A file with two settings under an environment with three variables, of which one is no number
and one is too large. -/
theorem partial_file_in_layers :
    let fs : Fields :=
      [("color", .null), ("start_poll_attempts", .int 7), ("watch_interval_ms", .int 900)]
    let file := some (Utf8.encode (Json.pretty (.obj fs)))
    let env (var : String) : Option String :=
      if var = "WATCHFIRE_WATCH_INTERVAL_MS" then some "soon"
      else if var = "WATCHFIRE_START_POLL_ATTEMPTS" then some "4294967296"
      else if var = "WATCHFIRE_RECONNECT_INTERVAL_MS" then some " 750 "
      else none
    let s := override env (load file)
    (∀ xs, valueOf? file ≠ some (.arr xs)) ∧ s.watchIntervalMs.toNat = 900 ∧
      s.startPollAttempts.toNat = 7 ∧ s.reconnectIntervalMs.toNat = 750 ∧
      s.rpcTimeoutMs.toNat = 10000 := by
  intro fs file env s
  have hplain : Json.Plain (.obj fs) := .obj (by simp [fs, Json.Plain.null, Json.Plain.int])
  have hvalue : valueOf? file = some (.obj fs) := by
    rw [valueOf?, Option.bind_some, Utf8.decode?_encode, Option.bind_some,
      Json.read?_pretty hplain]
  have hfile : ∀ xs, valueOf? file ≠ some (.arr xs) := fun xs h => by
    rw [hvalue] at h
    cases h
  have hfields : fieldsOf file = fs := by
    rw [fieldsOf, hvalue]
    exact if_pos (by decide +kernel)
  have hlayered : Layered fs env s := hfields ▸ (settings_in_layers file env hfile).1
  refine ⟨hfile, hlayered.watchIntervalMs.trans ?_, hlayered.startPollAttempts.trans ?_,
    hlayered.reconnectIntervalMs.trans ?_, hlayered.rpcTimeoutMs.trans ?_⟩ <;> decide +kernel

end Vigil.Settings
