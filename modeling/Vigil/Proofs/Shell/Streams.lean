import Vigil.Proofs.Shell.Overlays
import Vigil.Proofs.Shell.Traffic

/-! The streams of a run follow its connection: each connection brings a whole set of subscriptions
in the place of the one before, a crash takes it away, and at the end none is left. -/
namespace Vigil.Shell

open Subscriptions (Step Known)

theorem eventOf?_congr {keys keys' : List StreamKey} {id : Nat} (h : keys'[id]? = keys[id]?)
    (d : SubscriptionDeed) : eventOf? keys' (id, d) = eventOf? keys (id, d) := by
  cases d with
  | ask => rfl
  | event e => simp only [eventOf?, h]
  | ended how => simp only [eventOf?, h]

theorem eventOf?_cancelled (keys : List StreamKey) (id : Nat) :
    eventOf? keys (id, .ended .cancelled) = none := by
  cases h : keys[id]? <;> simp [eventOf?, h, StreamEnd.detail?]

namespace Traffic

variable {f : Traffic} {a : Act} {interval : Nat}

/-! ### What is told and what is sent -/

/-- Subscriptions are made to the projects' streams and nothing else, and what they were told is what
was sent. -/
structure Faithful (f : Traffic) : Prop where
  within : f.subscriptions.Within (wanted f.projects)
  heard : f.events = f.subscriptions.trail.filterMap (eventOf? f.subscriptions.keys)

namespace Faithful

theorem stream (h : f.Faithful) {s : Step} (hs : s.Within (wanted f.projects)) :
    (f.stream s).Faithful := by
  refine ⟨h.within.step hs, ?_⟩
  let m := f.subscriptions
  obtain ⟨fresh, hfresh⟩ := m.step_suffix s
  have htake : (m.step s).trail.take ((m.step s).trail.length - m.trail.length) = fresh := by
    rw [← hfresh]
    simp
  -- A deed that was known before is one of a subscription that keeps its key.
  have hold : m.trail.filterMap (eventOf? (m.step s).keys) = m.trail.filterMap (eventOf? m.keys) := by
    apply List.filterMap_congr
    rintro ⟨id, d⟩ hd
    have hlt : id < m.keys.length := by
      rw [m.length_keys]
      exact h.within.known _ hd
    have hkey : (m.step s).keys[id]? = m.keys[id]? := by
      rw [m.keys_step s, List.getElem?_append_left hlt]
    exact eventOf?_congr hkey d
  have hsent : (f.stream s).events =
      ((m.step s).trail.take ((m.step s).trail.length - m.trail.length)).filterMap
        (eventOf? (m.step s).keys) ++ f.events := rfl
  calc (f.stream s).events
      = fresh.filterMap (eventOf? (m.step s).keys) ++ f.events := by rw [hsent, htake]
    _ = fresh.filterMap (eventOf? (m.step s).keys) ++
          m.trail.filterMap (eventOf? (m.step s).keys) := by rw [h.heard, hold]
    _ = (m.step s).trail.filterMap (eventOf? (m.step s).keys) := by
        rw [← List.filterMap_append, hfresh]

theorem renew (h : f.Faithful) : f.renew.Faithful := by
  have hfold (steps : List Step) (f : Traffic) (h : f.Faithful)
      (hsteps : ∀ s ∈ steps, s.Within (wanted f.projects)) :
      (steps.foldl Traffic.stream f).Faithful := by
    induction steps generalizing f with
    | nil => exact h
    | cons s rest ih =>
      have hone := h.stream (hsteps s List.mem_cons_self)
      exact ih _ hone fun s' hs' => hsteps s' (List.mem_cons_of_mem s hs')
  refine hfold _ f h fun s hs => ?_
  obtain ⟨key, hkey, rfl⟩ := List.mem_map.mp hs
  exact hkey

theorem act (h : f.Faithful) (a : Act) : (f.act a).Faithful := by
  have hquiet := h.stream (s := .unsubscribeEverything) trivial
  cases a with
  | rest | pass | serve | turn | lose | miss => exact ⟨h.within, h.heard⟩
  | crash | leave => exact ⟨hquiet.within, hquiet.heard⟩
  | connect d => exact ⟨h.renew.within, h.renew.heard⟩
  | pump id answer => exact h.stream trivial
  | receive id item => exact h.stream trivial

end Faithful

/-! ### What an act can do to those who are registered -/

/-- Unless it is a connection an act is one step of the subscriptions or none, and subscribes to
nothing. -/
theorem act_streams (f : Traffic) (ha : ∀ d, a ≠ .connect d) :
    (f.act a).subscriptions = f.subscriptions ∧ (f.act a).events = f.events ∨
      ∃ s : Step, (∀ key, s ≠ .subscribe key) ∧
        (f.act a).subscriptions = f.subscriptions.step s ∧
        (f.act a).events = (f.stream s).events := by
  cases a with
  | connect d => exact absurd rfl (ha d)
  | rest | pass | serve | turn | lose | miss => exact .inl ⟨rfl, rfl⟩
  | crash | leave => exact .inr ⟨.unsubscribeEverything, nofun, rfl, rfl⟩
  | pump id answer => exact .inr ⟨.turn id answer, nofun, rfl, rfl⟩
  | receive id item => exact .inr ⟨.receive id item, nofun, rfl, rfl⟩

theorem act_handles_subset (ha : ∀ d, a ≠ .connect d) :
    (f.act a).subscriptions.handles ⊆ f.subscriptions.handles := by
  rcases f.act_streams ha with ⟨hsubs, -⟩ | ⟨s, hs, hsubs, -⟩
  · rw [hsubs]
    exact List.Subset.refl _
  · rw [hsubs]
    exact Subscriptions.step_handles_subset hs

theorem act_handles_eq_nil (hnone : f.subscriptions.handles = []) (ha : ∀ d, a ≠ .connect d) :
    (f.act a).subscriptions.handles = [] := by
  have hsubset := act_handles_subset (f := f) ha
  rw [hnone] at hsubset
  exact List.subset_nil.mp hsubset

/-- With nobody registered only a connection makes something happen. -/
theorem act_of_none (h : f.Faithful) (hnone : f.subscriptions.handles = [])
    (ha : ∀ d, a ≠ .connect d) :
    (f.act a).subscriptions.trail = f.subscriptions.trail ∧ (f.act a).events = f.events := by
  rcases f.act_streams ha with ⟨hsubs, hevents⟩ | ⟨s, hs, hsubs, hevents⟩
  · exact ⟨congrArg Subscriptions.trail hsubs, hevents⟩
  · have htrail := h.within.step_trail_of_none hnone hs
    refine ⟨(congrArg Subscriptions.trail hsubs).trans htrail, hevents.trans ?_⟩
    unfold stream
    simp [htrail]

/-! ### What an act can do to the connection -/

/-- The connection that an act brings. -/
def Act.connection? : Act → Option Record
  | .connect d => some d
  | .rest | .pass _ | .serve | .turn | .lose | .crash | .leave _ | .miss | .pump .. | .receive .. =>
    none

theorem Act.connection?_eq_none (ha : ∀ d, a ≠ .connect d) : a.connection? = none := by
  cases a with
  | connect d => exact absurd rfl (ha d)
  | rest | pass | serve | turn | lose | crash | leave | miss | pump | receive => rfl

theorem act_projects (f : Traffic) (a : Act) : (f.act a).projects = f.projects := by
  cases a with
  | connect d => exact f.renew_projects
  | rest | pass | serve | turn | lose | crash | leave | miss | pump | receive => rfl

theorem act_announced (ha : f.Allows a) :
    (f.act a).reconnect.announced = f.reconnect.announced ++ a.connection?.toList := by
  have hnone : f.reconnect.announced ++ [] = f.reconnect.announced := List.append_nil _
  cases a with
  | rest | pass | serve | leave | pump | receive => exact hnone.symm
  | turn => exact (f.reconnect.turn_announced 0).trans hnone.symm
  | lose | crash => exact f.reconnect.markDisconnected_announced.trans hnone.symm
  | miss => exact (f.reconnect.resume_announced 0).trans hnone.symm
  | connect d =>
    have hannounced := Link.Reconnect.connect_announced ha.2 d
    exact (Link.Reconnect.resume_announced _ 0).trans hannounced

theorem Linked.act_stopped (h : f.Linked interval 0) (ha : f.Allows a)
    (hstop : f.reconnect.stopped = true) : (f.act a).reconnect.stopped = true := by
  cases hserved : f.served with
  | false =>
    obtain ⟨-, -, heq⟩ := h.before hserved
    rw [heq] at hstop
    cases hstop
  | true =>
    have hserve : a ≠ .serve := by
      rintro rfl
      exact nomatch hserved.symm.trans ha.1
    rw [h.act_reconnect ha hserve]
    exact ((h.steady hserved).run_of_stopped hstop _).1

/-! ### Whole runs -/

/-- What holds of connection and streams all along. Once the end of a run is decided its connection
is stopped and nobody is registered. -/
structure Orderly (interval : Nat) (f : Traffic) : Prop where
  linked : f.Linked interval 0
  faithful : f.Faithful
  decided : f.exit ≠ none → f.reconnect.stopped = true ∧ f.subscriptions.handles = []

/-- Stopped, and with nobody registered. -/
def Over (f : Traffic) : Prop :=
  f.reconnect.stopped = true ∧ f.subscriptions.handles = []

namespace Orderly

theorem act_over (h : f.Orderly interval) (ha : f.Allows a) (hover : f.Over) :
    (f.act a).Over ∧ ∀ d, a ≠ .connect d := by
  have hconnect : ∀ d, a ≠ .connect d := by
    rintro d rfl
    exact nomatch ha.2.symm.trans hover.1
  exact ⟨⟨h.linked.act_stopped ha hover.1, act_handles_eq_nil hover.2 hconnect⟩, hconnect⟩

theorem act (h : f.Orderly interval) (ha : f.Allows a) : (f.act a).Orderly interval := by
  refine ⟨h.linked.act ha, h.faithful.act a, fun hexit => ?_⟩
  have hkept (hsame : (f.act a).exit = f.exit) : (f.act a).Over := by
    rw [hsame] at hexit
    exact (h.act_over ha (h.decided hexit)).1
  cases a with
  | leave exit => exact ⟨rfl, f.subscriptions.unsubscribeEverything_handles⟩
  | connect d => exact hkept f.renew_exit
  | rest | pass | serve | turn | lose | crash | miss | pump | receive => exact hkept rfl

end Orderly

end Traffic

namespace Run

open Traffic

variable {σ : Type} {r : Run σ} {interval : Nat}

theorem orderly_run (v : Daemon.Supervisor σ) (projects : List String) (exitDelay : Nat)
    (supervision : Daemon.Supervision σ) (interval : Nat) (queue : Queue)
    (moves : List (Move σ)) :
    (run (fresh v projects exitDelay supervision interval queue) moves).traffic.Orderly interval := by
  let begun := fresh v projects exitDelay supervision interval queue
  have hlinked : begun.traffic.Linked interval 0 :=
    ⟨Nat.zero_le _, fun _ => ⟨rfl, Nat.le_refl _, rfl⟩, nofun⟩
  have hfaithful : begun.traffic.Faithful := ⟨.empty _, rfl⟩
  have hbegun : begun.traffic.Orderly interval := ⟨hlinked, hfaithful, fun h => absurd rfl h⟩
  exact traffic_invariant (fun f a h ha => h.act ha) hbegun moves

theorem projects_run (r : Run σ) (moves : List (Move σ)) : (r.run moves).projects = r.projects := by
  refine traffic_invariant (P := fun f => f.projects = r.projects) (fun f a h _ => ?_) rfl moves
  exact (f.act_projects a).trans h

/-- Nothing that is over begins again. -/
theorem over_run (h : r.traffic.Orderly interval) (hover : r.traffic.Over) (later : List (Move σ)) :
    (r.run later).traffic.Over ∧
      (r.run later).subscriptions.trail = r.subscriptions.trail ∧
      (r.run later).streamEvents = r.streamEvents := by
  let P (f : Traffic) : Prop := f.Orderly interval ∧ f.Over ∧
    f.subscriptions.trail = r.subscriptions.trail ∧ f.events = r.streamEvents
  have hact : ∀ f a, P f → f.Allows a → P (f.act a) := by
    rintro f a ⟨hf, hover, htrail, hevents⟩ ha
    obtain ⟨hover', hconnect⟩ := hf.act_over ha hover
    obtain ⟨htrail', hevents'⟩ := act_of_none hf.faithful hover.2 hconnect
    exact ⟨hf.act ha, hover', htrail'.trans htrail, hevents'.trans hevents⟩
  exact (traffic_invariant hact ⟨h, hover, rfl, rfl⟩ later).2

/-- Who has gone comes back with the next connection and not before. -/
theorem none_until_announced (hnone : r.subscriptions.handles = []) (later : List (Move σ))
    (hsame : (r.run later).reconnect.announced = r.reconnect.announced) :
    (r.run later).subscriptions.handles = [] := by
  let before := r.reconnect.announced.length
  let P (f : Traffic) : Prop := before ≤ f.reconnect.announced.length ∧
    (f.reconnect.announced.length = before → f.subscriptions.handles = [])
  have hact : ∀ f a, P f → f.Allows a → P (f.act a) := by
    rintro f a ⟨hle, hempty⟩ ha
    have hgrown := congrArg List.length (act_announced ha)
    rw [List.length_append] at hgrown
    refine ⟨by omega, fun hlength => ?_⟩
    have hconnect : ∀ d, a ≠ .connect d := by
      rintro d rfl
      have hone : (Act.connect d).connection?.toList.length = 1 := rfl
      omega
    exact act_handles_eq_nil (hempty (by omega)) hconnect
  have hkept : P (r.run later).traffic :=
    traffic_invariant hact ⟨Nat.le_refl _, fun _ => hnone⟩ later
  exact hkept.2 (congrArg List.length hsame)

/-! ### What the moves come to -/

/-- A connection brings subscriptions to all that projects have. Who was registered before hears that
it was cancelled, and nothing else. -/
theorem acquired_renews (h : r.traffic.Orderly interval)
    (hloop : r.reconnect.loops[0]? = some .acquiring) (hgoes : r.reconnect.stopped = false)
    (d : Record) :
    let m := r.subscriptions
    let r' := r.step (.acquired (some d))
    r'.reconnect.announced = r.reconnect.announced ++ [d] ∧
      (∀ key, r'.subscriptions.isActive key = true ↔ key ∈ wanted r.projects) ∧
      ∀ key id, (key, id) ∈ m.handles → r'.subscriptions.isLive id = false ∧
        r'.subscriptions.deedsOf id = m.deedsOf id ++ [.ended .cancelled] := by
  intro m r'
  have hdoes : Does r r' (.connect d) := by
    have hacquired : r' = r.acquired (some d) := if_pos hloop
    rw [hacquired]
    exact does_acquired hloop hgoes d
  have hwithin : m.Within (wanted r.projects) := h.faithful.within
  have hannounced : r'.reconnect.announced = r.reconnect.announced ++ [d] := by
    have hact := act_announced hdoes.1
    rw [← hdoes.2] at hact
    exact hact
  have hrenewed : r'.subscriptions = m.renew (wanted r.projects) := by
    have hsubs := congrArg Traffic.subscriptions hdoes.2
    exact hsubs.trans r.traffic.renew_subscriptions
  refine ⟨hannounced, fun key => ?_, fun key id hm => ?_⟩
  · rw [hrenewed, Subscriptions.isActive_renew]
    constructor
    · rintro (hnew | hold)
      · exact hnew
      · obtain ⟨id, hm⟩ := Subscriptions.isActive_iff.mp hold
        exact hwithin.mem_of_handles hm
    · exact .inl
  · obtain ⟨c, hc, hkey, hl⟩ := (Subscriptions.mem_handles_iff hwithin.registered).mp hm
    have hwanted : c.sub.key ∈ wanted r.projects := by
      rw [hkey]
      exact hwithin.mem_of_handles hm
    obtain ⟨c', hc', -, hover, hdeeds⟩ :=
      Subscriptions.renew_former hwithin.registered hc hl hwanted
    rw [hrenewed]
    constructor
    · rw [Subscriptions.isLive_eq, hc']
      exact hover
    · rw [Subscriptions.deedsOf_of_course? hc', Subscriptions.deedsOf_of_course? hc]
      exact hdeeds

theorem step_main (hstage : r.stage = .looping) (topic : Topic) :
    r.step (.main topic) = r.attendTo topic := by
  change r.mainTurnOn topic = r.attendTo topic
  unfold mainTurnOn
  rw [hstage]

theorem crashed_clears (hstage : r.stage = .looping) {pid : UInt32}
    {notices : Mailbox Daemon.Notice}
    (ht : r.notices.take? = some (.message (.crashed pid), notices)) :
    (r.step (.main .notice)).subscriptions.handles = [] := by
  have hdoes := does_crashed hstage ht
  rw [← step_main hstage] at hdoes
  have hsubs := congrArg Traffic.subscriptions hdoes.2
  have hclear := r.subscriptions.unsubscribeEverything_handles
  exact (congrArg Subscriptions.handles hsubs).trans hclear

theorem shutdown_ends (hstage : r.stage = .looping) {notices : Mailbox Daemon.Notice}
    (ht : r.notices.take? = some (.message .shutdown, notices)) :
    (r.step (.main .notice)).traffic.Over := by
  have hdoes := does_shutdown hstage ht
  rw [← step_main hstage] at hdoes
  rw [hdoes.2]
  exact ⟨rfl, r.subscriptions.unsubscribeEverything_handles⟩

/-- Who lost a registration was told that it was cancelled, and of that nothing is said. -/
theorem no_end_of_cancelled (h : r.traffic.Orderly interval) {id : Nat}
    (hid : r.subscriptions.isCancelled id = true) {d : SubscriptionDeed}
    (hd : (id, d) ∈ r.subscriptions.trail) (project : String) (kind : StreamKind)
    (detail : String) :
    eventOf? r.subscriptions.keys (id, d) ≠ some (.ended project kind detail) := by
  intro hevent
  cases d with
  | ask => cases hevent
  | event e => cases hkey : r.subscriptions.keys[id]? <;> simp [eventOf?, hkey] at hevent
  | ended how =>
    obtain ⟨s, hs, hcancelled⟩ := Option.any_eq_true .. |>.mp hid
    have hc : r.subscriptions.course? id = some ⟨s, r.subscriptions.deedsOf id⟩ := by
      rw [Subscriptions.course?, hs, Option.map_some]
    have htended := h.faithful.within.tended hc
    have hhow : how = .cancelled :=
      htended.torn hcancelled how (Subscriptions.mem_deedsOf.mpr hd)
    rw [hhow, eventOf?_cancelled] at hevent
    cases hevent

/-- Whatever daemon, connection and streams do, in every order of the tasks: the streams that are
registered are some of the projects', and all of them with every connection that comes while nobody
has stopped; those of the connection before hear that they were cancelled. A crash that the main task
has looked at leaves none until the next connection, a shutdown none for good. A run that has ended
otherwise than for want of a daemon has nobody registered and the connection stopped, and from then
on no stream is asked for and nothing is sent of any. What is sent of streams is what the
subscriptions were told, in that order, and no end of one that lost its registration. -/
theorem streams_follow_connection (v : Daemon.Supervisor σ) (projects : List String)
    (exitDelay : Nat) (supervision : Daemon.Supervision σ) (interval : Nat) (queue : Queue)
    (moves : List (Move σ)) :
    let r := run (fresh v projects exitDelay supervision interval queue) moves
    let m := r.subscriptions
    (∀ key, m.isActive key = true → key ∈ wanted projects) ∧
    (r.reconnect.loops[0]? = some .acquiring → r.reconnect.stopped = false → ∀ d,
      let r' := r.step (.acquired (some d))
      r'.reconnect.announced = r.reconnect.announced ++ [d] ∧
        (∀ key, r'.subscriptions.isActive key = true ↔ key ∈ wanted projects) ∧
        ∀ key id, (key, id) ∈ m.handles → r'.subscriptions.isLive id = false ∧
          r'.subscriptions.deedsOf id = m.deedsOf id ++ [.ended .cancelled]) ∧
    (∀ pid notices, r.stage = .looping →
      r.notices.take? = some (.message (.crashed pid), notices) →
      let r' := r.step (.main .notice)
      r'.subscriptions.handles = [] ∧
        ∀ later, (r'.run later).reconnect.announced = r'.reconnect.announced →
          (r'.run later).subscriptions.handles = []) ∧
    (∀ notices, r.stage = .looping → r.notices.take? = some (.message .shutdown, notices) →
      let r' := r.step (.main .notice)
      r'.subscriptions.handles = [] ∧ ∀ later, (r'.run later).subscriptions.handles = []) ∧
    (∀ at_ exit, r.stage = .exited at_ (.ok exit) →
      m.handles = [] ∧ r.reconnect.stopped = true ∧ ∀ later,
        (r.run later).subscriptions.handles = [] ∧ (r.run later).reconnect.stopped = true ∧
          (r.run later).subscriptions.trail = m.trail ∧
          (r.run later).streamEvents = r.streamEvents) ∧
    r.streamEvents = m.trail.filterMap (eventOf? m.keys) ∧
    ∀ id, m.isCancelled id = true → ∀ d, (id, d) ∈ m.trail → ∀ project kind detail,
      eventOf? m.keys (id, d) ≠ some (.ended project kind detail) := by
  intro r m
  have h : r.traffic.Orderly interval :=
    orderly_run v projects exitDelay supervision interval queue moves
  have hprojects : r.projects = projects := projects_run _ moves
  have hstep : (r.step (.main .notice)).traffic.Orderly interval := by
    obtain ⟨a, ha, heq⟩ := r.does (.main .notice)
    rw [heq]
    exact h.act ha
  refine ⟨fun key hkey => ?_, fun hloop hgoes d => ?_, fun pid notices hstage ht => ?_,
    fun notices hstage ht => ?_, fun at_ exit hstage => ?_, h.faithful.heard,
    fun id hid d hd => no_end_of_cancelled h hid hd⟩
  · obtain ⟨id, hm⟩ := Subscriptions.isActive_iff.mp hkey
    rw [← hprojects]
    exact h.faithful.within.mem_of_handles hm
  · rw [← hprojects]
    exact acquired_renews h hloop hgoes d
  · have hclear := crashed_clears hstage ht
    exact ⟨hclear, none_until_announced hclear⟩
  · have hover := shutdown_ends hstage ht
    exact ⟨hover.2, fun later => (over_run hstep hover later).1.2⟩
  · have hdecided : r.traffic.exit ≠ none := by
      have hexit : r.traffic.exit = some exit := congrArg Stage.exit? hstage
      simp [hexit]
    have hover : r.traffic.Over := h.decided hdecided
    refine ⟨hover.2, hover.1, fun later => ?_⟩
    obtain ⟨⟨hstopped, hnone⟩, htrail, hevents⟩ := over_run h hover later
    exact ⟨hnone, hstopped, htrail, hevents⟩

/-- The first connection has just been asked for. -/
def connecting : List (Move Rehearsal.World) := [.main .notice, .loop]

/-- The daemon crashes, and the watch has noticed. -/
def crashing : List (Move Rehearsal.World) :=
  settling ++ [.world { record := some { port := 1, pid := 100 } }, .pass 2_000_000_000, .watch false]

theorem attached_streams :
    let daemon : Record := { port := 1, pid := 100 }
    let r := run attached connecting
    let crashed := run attached crashing
    let left := run attached (settling ++ leaving.take 3)
    let ended := run attached (settling ++ leaving)
    ((r.reconnect.loops[0]? = some .acquiring ∧ r.reconnect.stopped = false) ∧
      ∀ key, (r.step (.acquired (some daemon))).subscriptions.isActive key = true ↔
        key ∈ wanted ["p"]) ∧
    ((crashed.stage = .looping ∧ crashed.subscriptions.size = 2) ∧
      (crashed.step (.main .notice)).subscriptions.handles = [] ∧
      ((crashed.step (.main .notice)).run [.loop]).subscriptions.handles = []) ∧
    ((left.stage = .looping ∧ left.subscriptions.size = 2) ∧
      ∀ later, ((left.step (.main .notice)).run later).subscriptions.handles = []) ∧
    (ended.stage = .exited 2_000_000_005 (.ok .daemonShutdown) ∧
      ∀ later, (ended.run later).streamEvents = ended.streamEvents) ∧
    (ended.subscriptions.isCancelled 0 = true ∧
      (0, .ended .cancelled) ∈ ended.subscriptions.trail ∧
      ∀ project kind detail, eventOf? ended.subscriptions.keys (0, .ended .cancelled) ≠
        some (.ended project kind detail)) := by
  intro daemon r crashed left ended
  have hfollow := streams_follow_connection ⟨Rehearsal.World.surroundings, {}⟩ ["p"] 5
    { world := { record := some { port := 1, pid := 100 }, alive := [100] } } 3 (.ofLimit 8)
  obtain ⟨-, hrenews, -⟩ := hfollow connecting
  obtain ⟨-, -, hcrash, -⟩ := hfollow crashing
  obtain ⟨-, -, -, hshutdown, -⟩ := hfollow (settling ++ leaving.take 3)
  obtain ⟨-, -, -, -, hends, -, htorn⟩ := hfollow (settling ++ leaving)
  have hloop : r.reconnect.loops[0]? = some .acquiring := by decide
  have hgoes : r.reconnect.stopped = false := by decide
  have hlooping : crashed.stage = .looping := rfl
  have hcrashed : crashed.notices.take? =
      some (.message (.crashed 100), { crashed.notices with messages := [] }) := rfl
  obtain ⟨hclear, huntil⟩ := hcrash 100 _ hlooping hcrashed
  have hlooping' : left.stage = .looping := rfl
  have hleft : left.notices.take? =
      some (.message .shutdown, { left.notices with messages := [] }) := rfl
  have hexited : ended.stage = .exited 2_000_000_005 (.ok .daemonShutdown) := rfl
  have hcancelled : ended.subscriptions.isCancelled 0 = true := by decide
  have htold : (0, .ended .cancelled) ∈ ended.subscriptions.trail := by decide
  refine ⟨⟨⟨hloop, hgoes⟩, (hrenews hloop hgoes daemon).2.1⟩, ⟨⟨hlooping, by decide⟩, hclear, ?_⟩,
    ⟨⟨hlooping', by decide⟩, (hshutdown _ hlooping' hleft).2⟩, ⟨hexited, fun later => ?_⟩,
    hcancelled, htold, htorn 0 hcancelled _ htold⟩
  · have hsame : ((crashed.step (.main .notice)).run [.loop]).reconnect.announced =
        (crashed.step (.main .notice)).reconnect.announced := by decide
    exact huntil [.loop] hsame
  · exact ((hends _ _ hexited).2.2 later).2.2.2

end Run

end Vigil.Shell
