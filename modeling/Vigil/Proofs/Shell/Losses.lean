import Vigil.Proofs.Shell.Streams

/-! The reports of lost streams in a run. A report does not say which connection it is about: the
ones that wait when a connection comes are about earlier ones, and those that are made from then on
are not. -/
namespace Vigil

namespace Subscriptions

open Subscription (Course)

variable {m : Subscriptions} {keys : List StreamKey}

/-- The subscription that a deed reports as lost. -/
def reporter? : Nat × SubscriptionDeed → Option Nat
  | (id, .ended (.disconnected _)) => some id
  | _ => none

/-- The subscriptions that were reported as lost, in the order of the reports. -/
def reports (m : Subscriptions) : List Nat := m.trail.reverse.filterMap reporter?

theorem reports_append {m' : Subscriptions} {news : List (Nat × SubscriptionDeed)}
    (h : m'.trail = news ++ m.trail) :
    m'.reports = m.reports ++ news.reverse.filterMap reporter? := by
  rw [reports, h, List.reverse_append, List.filterMap_append]
  rfl

theorem mem_of_reporter? {d : Nat × SubscriptionDeed} {id : Nat} (h : reporter? d = some id) :
    d.1 = id := by
  unfold reporter? at h
  split at h
  · exact Option.some.inj h
  · cases h

theorem Known.reports_lt (h : Known m) {id : Nat} (hid : id ∈ m.reports) : id < m.all.length := by
  obtain ⟨deed, hdeed, hreporter⟩ := List.mem_filterMap.mp hid
  rw [← mem_of_reporter? hreporter]
  exact h deed (List.mem_reverse.mp hdeed)

/-! ### A new connection -/

theorem tellEnd_cancelled_reports (m : Subscriptions) (id : Nat) :
    (m.tellEnd id .cancelled).reports = m.reports := by
  rw [reports, tellEnd_trail]
  split
  · rw [List.reverse_cons, List.filterMap_append]
    exact List.append_nil _
  · rfl

theorem remove_reports (m : Subscriptions) (p : StreamKey → Bool) :
    (m.remove p).1.reports = m.reports := by
  have hall (m : Subscriptions) (gone : List (StreamKey × Nat)) :
      (m.teardownAll gone).reports = m.reports := by
    induction gone generalizing m with
    | nil => rfl
    | cons h rest ih =>
      have hone : (m.teardown h.2).reports = m.reports :=
        (m.cancel h.2).tellEnd_cancelled_reports h.2
      exact (ih (m.teardown h.2)).trans hone
  let kept : Subscriptions := { m with handles := m.handles.filter fun h => !p h.1 }
  rw [remove_eq]
  exact hall kept _

/-- Who is subscribed anew reports nothing by that, and neither does who was subscribed before. -/
theorem renew_reports (m : Subscriptions) (keys : List StreamKey) :
    (m.renew keys).reports = m.reports := by
  induction keys generalizing m with
  | nil => rfl
  | cons key rest ih => exact (ih (m.subscribe key).1).trans (m.remove_reports (· == key))

/-- Of those who were there before nobody's end is still to be told. -/
theorem Within.renew_over (h : m.Within keys) {id : Nat} (hid : id < m.all.length) :
    (m.renew keys).isLive id = false := by
  have hc : m.course? id = some ⟨m.all[id], m.deedsOf id⟩ := by
    rw [course?, List.getElem?_eq_getElem hid, Option.map_some]
  rw [isLive_eq]
  cases hl : m.all[id].live with
  | false =>
    have hlater := course?_run h.registered hc (keys.map .subscribe)
    rw [Subscriptions.renew, hlater]
    exact Course.run_over hl _
  | true =>
    have hkey : m.all[id].key ∈ keys :=
      h.mem_of_handles ((mem_handles_iff h.registered).mpr ⟨_, hc, rfl, hl⟩)
    obtain ⟨c', hc', -, hover, -⟩ := renew_former h.registered hc hl hkey
    rw [hc']
    exact hover

theorem run_suffix (m : Subscriptions) (steps : List Step) : m.trail <:+ (m.run steps).trail := by
  induction steps generalizing m with
  | nil => exact List.suffix_rfl
  | cons s rest ih => exact (m.step_suffix s).trans (ih (m.step s))

/-- While the ends of the first `n` have been told, all that is new is told by the others. -/
theorem Within.trail_run (h : m.Within keys) {n : Nat} (hn : n ≤ m.all.length)
    (hover : ∀ id < n, m.isLive id = false) (steps : List Step) :
    ∃ news, (m.run steps).trail = news ++ m.trail ∧ ∀ d ∈ news, n ≤ d.1 := by
  obtain ⟨news, hnews⟩ := m.run_suffix steps
  refine ⟨news, hnews.symm, fun d hd => ?_⟩
  by_contra hlt
  have hid : d.1 < m.all.length := by omega
  have hc : m.course? d.1 = some ⟨m.all[d.1], m.deedsOf d.1⟩ := by
    rw [course?, List.getElem?_eq_getElem hid, Option.map_some]
  have hdead := hover d.1 (by omega)
  rw [isLive_eq, hc] at hdead
  have hsame := deedsOf_run_of_silent h.registered hc (h.silent hc hdead) steps
  have hnone : (news.reverse.filter (·.1 == d.1)).map Prod.snd = [] := by
    simpa [deedsOf, ← hnews] using hsame
  have hmem : d.2 ∈ (news.reverse.filter (·.1 == d.1)).map Prod.snd :=
    List.mem_map.mpr ⟨d, by simp [hd], rfl⟩
  rw [hnone] at hmem
  cases hmem

/-- Once all keys have new subscriptions nobody who was there before reports any more. -/
theorem Within.reports_renew_run (h : m.Within keys) (steps : List Step) :
    ∃ news, ((m.renew keys).run steps).reports = m.reports ++ news ∧
      ∀ id ∈ news, m.all.length ≤ id := by
  have hmade : m.all.length ≤ (m.renew keys).all.length := by
    rw [Subscriptions.renew, length_run]
    exact Nat.le_add_right _ _
  obtain ⟨told, htold, hids⟩ := h.renew.trail_run hmade (fun id => h.renew_over) steps
  refine ⟨_, (reports_append htold).trans (by rw [renew_reports]), fun id hid => ?_⟩
  obtain ⟨deed, hdeed, hreporter⟩ := List.mem_filterMap.mp hid
  rw [← mem_of_reporter? hreporter]
  exact hids deed (List.mem_reverse.mp hdeed)

end Subscriptions

namespace Shell.Run

variable {σ : Type} {r r' r'' : Run σ}

/-- How many of the reports have been attended to. -/
def attended (r : Run σ) : Nat := r.subscriptions.reports.length - r.lost

/-- Who made the report that is attended to next; they are attended to in order. -/
def nextReport? (r : Run σ) : Option Nat := r.subscriptions.reports[r.attended]?

/-! ### What is reported waits to be attended to -/

/-- What was reported in between waits, behind what waited before. -/
def Tells (r r' : Run σ) : Prop :=
  ∃ news, r'.subscriptions.trail = news ++ r.subscriptions.trail ∧
    r'.lost = r.lost + (news.filterMap Subscriptions.reporter?).length

namespace Tells

theorem of_eq (hs : r'.subscriptions = r.subscriptions) (hl : r'.lost = r.lost) : Tells r r' :=
  ⟨[], by rw [hs]; rfl, hl⟩

theorem trans (h : Tells r r') (h' : Tells r' r'') : Tells r r'' := by
  obtain ⟨news, ht, hl⟩ := h
  obtain ⟨more, ht', hl'⟩ := h'
  refine ⟨more ++ news, by rw [ht', ht, List.append_assoc], ?_⟩
  rw [hl', hl, List.filterMap_append, List.length_append]
  omega

theorem hear (r : Run σ) (d : Nat × SubscriptionDeed) :
    (r.hear d).lost = r.lost + (Subscriptions.reporter? d).toList.length := by
  obtain ⟨id, d⟩ := d
  cases d with
  | ask => rfl
  | event e =>
    unfold Run.hear
    dsimp only
    split <;> rfl
  | ended how =>
    unfold Run.hear
    dsimp only
    cases how <;> dsimp only <;> split <;> rfl

theorem foldl_hear (r : Run σ) (deeds : List (Nat × SubscriptionDeed)) :
    (deeds.foldl Run.hear r).lost =
      r.lost + (deeds.filterMap Subscriptions.reporter?).length := by
  induction deeds generalizing r with
  | nil => rfl
  | cons d rest ih =>
    rw [List.foldl_cons, ih, hear, List.filterMap_cons]
    cases Subscriptions.reporter? d with
    | none => rfl
    | some id =>
      simp only [Option.toList_some, List.length_cons, List.length_nil]
      omega

theorem withSubscriptions (r : Run σ) (s : Subscriptions.Step) :
    Tells r (r.withSubscriptions (r.subscriptions.step s)) := by
  obtain ⟨news, hnews⟩ := r.subscriptions.step_suffix s
  have hsubs : (r.withSubscriptions (r.subscriptions.step s)).subscriptions =
      r.subscriptions.step s :=
    congrArg Traffic.subscriptions (r.withSubscriptions_traffic s)
  refine ⟨news, by rw [hsubs, hnews], ?_⟩
  unfold Run.withSubscriptions
  dsimp only
  rw [foldl_hear, ← hnews]
  simp [List.filterMap_reverse]

theorem unsubscribeEverything (r : Run σ) : Tells r r.unsubscribeEverything :=
  withSubscriptions r .unsubscribeEverything

theorem subscribeProjects (r : Run σ) : Tells r r.subscribeProjects := by
  unfold Run.subscribeProjects
  generalize (r.projects.flatMap fun p => projectKinds.map (StreamKey.mk p)) = keys
  induction keys generalizing r with
  | nil => exact of_eq rfl rfl
  | cons key rest ih => exact (withSubscriptions r (.subscribe key)).trans (ih _)

theorem close (r : Run σ) (exit : Exit) : Tells r (r.close exit) :=
  (of_eq rfl rfl : Tells r { r with watchCancelled := true, reconnect := r.reconnect.stop }).trans
    ((unsubscribeEverything _).trans (of_eq rfl rfl))

theorem log (r : Run σ) (line : String) : Tells r (r.log line) := of_eq rfl rfl

theorem onNotice (r : Run σ) (n : Daemon.Notice) : Tells r (r.onNotice n) := by
  unfold Run.onNotice
  cases n with
  | ready d => exact of_eq rfl rfl
  | restarted d => exact (of_eq rfl rfl : Tells r (r.bind d)).trans (log _ _)
  | restartFailed k e wait => exact log r _
  | crashed pid =>
    exact (unsubscribeEverything r).trans
      ((of_eq rfl rfl : Tells _ r.unsubscribeEverything.markDisconnected).trans (log _ _))
  | abandoned k => exact (log r _).trans (close _ _)
  | shutdown =>
    exact (of_eq rfl rfl : Tells r { r with reconnect := r.reconnect.stop }).trans
      ((unsubscribeEverything _).trans (of_eq rfl rfl))

theorem mainTurn (hstage : r.stage ≠ .looping) : Tells r r.mainTurn := by
  unfold Run.mainTurn
  split
  · exact of_eq rfl rfl
  · split
    · split
      split <;> exact of_eq rfl rfl
    · next hlooping => exact absurd hlooping hstage
    · exact close r _
    · exact of_eq rfl rfl
    · exact of_eq rfl rfl

theorem attendTo (r : Run σ) {topic : Topic} (htopic : topic ≠ .loss) :
    Tells r (r.attendTo topic) := by
  unfold Run.attendTo
  cases topic with
  | interruption =>
    dsimp only
    split
    · exact close r _
    · exact of_eq rfl rfl
  | notice =>
    dsimp only
    split
    · exact .trans (of_eq rfl rfl) (onNotice _ _)
    · exact of_eq rfl rfl
    · exact of_eq rfl rfl
  | state =>
    dsimp only
    split <;> exact of_eq rfl rfl
  | loss => exact absurd rfl htopic

theorem acquired (r : Run σ) (found : Option Record) : Tells r (r.acquired found) := by
  unfold Run.acquired
  cases found with
  | none => exact of_eq rfl rfl
  | some d =>
    dsimp only
    split
    · exact of_eq rfl rfl
    · exact (of_eq rfl rfl : Tells r (r.withReconnect _)).trans
        ((subscribeProjects _).trans (of_eq rfl rfl))

end Tells

/-- A move attends to one of the reports, or to none. -/
theorem step_tells (r : Run σ) (move : Move σ) : Tells r (r.step move) ∨
    0 < r.lost ∧ r.step move = { r with lost := r.lost - 1 }.markDisconnected := by
  cases move with
  | world | pass | interrupt | drain | loop => exact .inl (.of_eq rfl rfl)
  | watch hears =>
    refine .inl ?_
    change Tells r (r.watchTurnOn hears)
    unfold watchTurnOn
    split <;> exact .of_eq rfl rfl
  | acquired found =>
    refine .inl ?_
    by_cases hloop : r.reconnect.loops[0]? = some .acquiring
    · rw [step, if_pos hloop]
      exact .acquired r found
    · rw [step, if_neg hloop]
      exact .of_eq rfl rfl
  | pump id answer => exact .inl (.withSubscriptions r (.turn id answer))
  | receive id item => exact .inl ⟨[], rfl, rfl⟩
  | main topic =>
    by_cases hstage : r.stage = .looping
    · rw [step_main hstage]
      by_cases hloss : topic = .loss
      · obtain rfl := hloss
        by_cases hlost : 0 < r.lost
        · exact .inr ⟨hlost, by rw [attendTo, if_pos hlost]⟩
        · exact .inl (by rw [attendTo, if_neg hlost]; exact .of_eq rfl rfl)
      · exact .inl (.attendTo r hloss)
    · refine .inl ?_
      change Tells r (r.mainTurnOn topic)
      unfold mainTurnOn
      split
      · next hlooping => exact absurd hlooping hstage
      · exact .mainTurn hstage

/-- What waits is the rest of what was reported, and what was attended to stays so. -/
theorem attended_step (h : r.lost ≤ r.subscriptions.reports.length) (move : Move σ) :
    (r.step move).lost ≤ (r.step move).subscriptions.reports.length ∧
      r.attended ≤ (r.step move).attended := by
  unfold attended
  rcases r.step_tells move with ⟨news, ht, hl⟩ | ⟨hlost, heq⟩
  · have hlength := congrArg List.length (Subscriptions.reports_append ht)
    rw [List.length_append, List.filterMap_reverse, List.length_reverse] at hlength
    omega
  · rw [heq]
    change r.lost - 1 ≤ r.subscriptions.reports.length ∧
      _ ≤ r.subscriptions.reports.length - (r.lost - 1)
    omega

theorem attended_run (h : r.lost ≤ r.subscriptions.reports.length) (moves : List (Move σ)) :
    (r.run moves).lost ≤ (r.run moves).subscriptions.reports.length ∧
      r.attended ≤ (r.run moves).attended := by
  refine run_induction (P := fun r' => r'.lost ≤ r'.subscriptions.reports.length ∧
    r.attended ≤ r'.attended) (fun r' move hr' => ?_) ⟨h, Nat.le_refl _⟩ moves
  have hone := attended_step hr'.1 move
  exact ⟨hone.1, Nat.le_trans hr'.2 hone.2⟩

theorem attendTo_loss (hwaits : r.lost ≤ r.subscriptions.reports.length) (hsome : 0 < r.lost) :
    r.nextReport?.isSome ∧ (r.attendTo .loss).attended = r.attended + 1 ∧
      (r.attendTo .loss).subscriptions = r.subscriptions ∧
      (r.attendTo .loss).reconnect = r.reconnect.markDisconnected := by
  have hattend : r.attendTo .loss = { r with lost := r.lost - 1 }.markDisconnected := by
    rw [attendTo, if_pos hsome]
  have hsubs : (r.attendTo .loss).subscriptions = r.subscriptions := by rw [hattend]; rfl
  have hrest : (r.attendTo .loss).lost = r.lost - 1 := by rw [hattend]; rfl
  have hlt : r.attended < r.subscriptions.reports.length := by
    rw [attended]
    omega
  refine ⟨?_, ?_, hsubs, by rw [hattend]; rfl⟩
  · rw [nextReport?, List.getElem?_eq_getElem hlt]
    rfl
  · rw [attended, hsubs, hrest, attended]
    omega

/-- Among those who reported before and those who did since, it is told by the number of reports who
comes next. -/
theorem nextReport?_since {old news : List Nat} {made : Nat}
    (hreports : r.subscriptions.reports = old ++ news) (hold : ∀ id ∈ old, id < made)
    (hnews : ∀ id ∈ news, made ≤ id) {id : Nat} (hid : r.nextReport? = some id) :
    made ≤ id ↔ old.length ≤ r.attended := by
  rw [nextReport?, hreports] at hid
  constructor
  · intro hle
    by_contra hlt
    rw [List.getElem?_append_left (by omega)] at hid
    have hbefore := hold id (List.mem_of_getElem? hid)
    omega
  · intro hle
    rw [List.getElem?_append_right hle] at hid
    exact hnews id (List.mem_of_getElem? hid)

/-! ### From a connection on -/

theorem exists_steps (r : Run σ) (moves : List (Move σ)) :
    ∃ steps, (r.run moves).subscriptions = r.subscriptions.run steps := by
  let m := r.subscriptions
  refine traffic_invariant (P := fun f => ∃ steps, f.subscriptions = m.run steps)
    (fun f a ⟨steps, hsteps⟩ _ => ?_) ⟨[], rfl⟩ moves
  by_cases hconnect : ∃ d, a = .connect d
  · obtain ⟨d, rfl⟩ := hconnect
    refine ⟨steps ++ (wanted f.projects).map .subscribe, ?_⟩
    have hrenewed : (f.act (.connect d)).subscriptions =
        f.subscriptions.renew (wanted f.projects) := f.renew_subscriptions
    rw [hrenewed, hsteps, Subscriptions.renew, Subscriptions.run, Subscriptions.run,
      Subscriptions.run, List.foldl_append]
  · push Not at hconnect
    rcases f.act_streams hconnect with ⟨hsame, -⟩ | ⟨s, -, hone, -⟩
    · exact ⟨steps, hsame.trans hsteps⟩
    · exact ⟨steps ++ [s], by rw [hone, hsteps, Subscriptions.run_concat]⟩

/-- A connection gives everybody new subscriptions, and what waits is what waited. -/
theorem acquired_reports (hloop : r.reconnect.loops[0]? = some .acquiring)
    (hgoes : r.reconnect.stopped = false) (d : Record) :
    (r.step (.acquired (some d))).subscriptions = r.subscriptions.renew (wanted r.projects) ∧
      (r.step (.acquired (some d))).subscriptions.reports = r.subscriptions.reports ∧
      (r.step (.acquired (some d))).lost = r.lost := by
  have hacquired : r.step (.acquired (some d)) = r.acquired (some d) := if_pos hloop
  rw [hacquired]
  have hrenewed : (r.acquired (some d)).subscriptions =
      r.subscriptions.renew (wanted r.projects) :=
    (congrArg Traffic.subscriptions (does_acquired hloop hgoes d).2).trans
      r.traffic.renew_subscriptions
  have hreports : (r.acquired (some d)).subscriptions.reports = r.subscriptions.reports := by
    rw [hrenewed, Subscriptions.renew_reports]
  obtain ⟨news, ht, hl⟩ := Tells.acquired r (some d)
  have hlength := congrArg List.length (Subscriptions.reports_append ht)
  rw [hreports, List.length_append, List.filterMap_reverse, List.length_reverse] at hlength
  exact ⟨hrenewed, hreports, by omega⟩

/-- In every order of the tasks: a connection reports nothing and leaves the reports that wait where
they are. From then on reports are made by its subscriptions and those of later connections alone,
which are the ones from `made` on. So the report that is attended to next is one of theirs exactly
if all that were made before the connection have been attended to, and always if none of these
waited when it came. To attend to a report is to call the connection lost, whichever one the report
was about. -/
theorem reports_since_connection (v : Daemon.Supervisor σ) (projects : List String)
    (exitDelay : Nat) (supervision : Daemon.Supervision σ) (interval : Nat) (queue : Queue)
    (before later : List (Move σ)) (d : Record) :
    let r := run (fresh v projects exitDelay supervision interval queue) before
    let made := r.subscriptions.all.length
    let connected := r.step (.acquired (some d))
    let r' := connected.run later
    r.reconnect.loops[0]? = some .acquiring → r.reconnect.stopped = false →
    (connected.subscriptions.reports = r.subscriptions.reports ∧ connected.lost = r.lost) ∧
    (∃ news, r'.subscriptions.reports = r.subscriptions.reports ++ news ∧ ∀ id ∈ news, made ≤ id) ∧
    (∀ id, r'.nextReport? = some id →
      (made ≤ id ↔ r.subscriptions.reports.length ≤ r'.attended)) ∧
    (r.lost = 0 → ∀ id, r'.nextReport? = some id → made ≤ id) ∧
    (0 < r'.lost → r'.nextReport?.isSome ∧ (r'.attendTo .loss).attended = r'.attended + 1 ∧
      (r'.attendTo .loss).subscriptions = r'.subscriptions ∧
      (r'.attendTo .loss).reconnect = r'.reconnect.markDisconnected) := by
  intro r made connected r' hloop hgoes
  have h : r.traffic.Orderly interval :=
    orderly_run v projects exitDelay supervision interval queue before
  have hwithin : r.subscriptions.Within (wanted r.projects) := h.faithful.within
  have hwaits : r.lost ≤ r.subscriptions.reports.length :=
    (attended_run (Nat.le_refl 0 : (fresh v projects exitDelay supervision interval queue).lost ≤ _)
      before).1
  obtain ⟨hrenewed, hreports, hlost⟩ :
      connected.subscriptions = r.subscriptions.renew (wanted r.projects) ∧
        connected.subscriptions.reports = r.subscriptions.reports ∧ connected.lost = r.lost :=
    acquired_reports hloop hgoes d
  have hready : connected.lost ≤ connected.subscriptions.reports.length := by
    rw [hreports, hlost]
    exact hwaits
  obtain ⟨hwaits', hattended⟩ :
      r'.lost ≤ r'.subscriptions.reports.length ∧ connected.attended ≤ r'.attended :=
    attended_run hready later
  obtain ⟨steps, hsteps⟩ := connected.exists_steps later
  obtain ⟨news, hsince, hnews⟩ := hwithin.reports_renew_run steps
  have hreports' : r'.subscriptions.reports = r.subscriptions.reports ++ news := by
    rw [hsteps, hrenewed]
    exact hsince
  have hnext (id : Nat) (hid : r'.nextReport? = some id) :
      made ≤ id ↔ r.subscriptions.reports.length ≤ r'.attended :=
    nextReport?_since hreports' (fun id => hwithin.known.reports_lt) hnews hid
  refine ⟨⟨hreports, hlost⟩, ⟨news, hreports', hnews⟩, hnext, fun hnone id hid => ?_,
    attendTo_loss hwaits'⟩
  refine (hnext id hid).mpr (Nat.le_trans ?_ hattended)
  rw [attended, hreports, hlost, hnone]
  exact Nat.le_refl _

/-- A stream of the first connection fails, and the other one fails when the wait for the second
connection is over. Nobody attends to that before the second connection comes. -/
def overtaken : List (Move Rehearsal.World) :=
  let daemon : Record := { port := 1, pid := 100 }
  let refused : Subscriptions.Answer := .refused ⟨.unavailable, "gone"⟩
  [.main .notice, .loop, .acquired (some daemon), .pump 0 .later, .pump 1 .later, .pump 0 refused,
    .main .loss, .loop, .pass 3, .pump 1 refused, .loop, .loop]

/-- Both streams of the first connection are asked for, and one fails. -/
def failing : List (Move Rehearsal.World) :=
  [.pump 0 .later, .pump 1 .later, .pump 0 (.refused ⟨.unavailable, "gone"⟩)]

theorem reports_of_attached :
    let daemon : Record := { port := 1, pid := 100 }
    let r := run attached overtaken
    let second := r.step (.acquired (some daemon))
    let before := run attached connecting
    let failed := (before.step (.acquired (some daemon))).run failing
    ((r.reconnect.loops[0]? = some .acquiring ∧ r.reconnect.stopped = false) ∧
      second.subscriptions.reports = r.subscriptions.reports) ∧
    (before.reconnect.loops[0]? = some .acquiring ∧ before.reconnect.stopped = false) ∧
    (before.lost = 0 ∧ failed.nextReport? = some 0 ∧ before.subscriptions.all.length ≤ 0) ∧
    0 < failed.lost ∧ (failed.attendTo .loss).attended = failed.attended + 1 := by
  intro daemon r second before failed
  have hreports := reports_since_connection ⟨Rehearsal.World.surroundings, {}⟩ ["p"] 5
    { world := { record := some { port := 1, pid := 100 }, alive := [100] } } 3 (.ofLimit 8)
  have hloop : r.reconnect.loops[0]? = some .acquiring := by decide
  have hgoes : r.reconnect.stopped = false := by decide
  obtain ⟨⟨hkept, -⟩, -⟩ := hreports overtaken [] daemon hloop hgoes
  have hloop' : before.reconnect.loops[0]? = some .acquiring := by decide
  have hgoes' : before.reconnect.stopped = false := by decide
  obtain ⟨-, -, -, hlatest, hattends⟩ := hreports connecting failing daemon hloop' hgoes'
  have hnone : before.lost = 0 := by decide
  have hnext : failed.nextReport? = some 0 := by decide
  have hsome : 0 < failed.lost := by decide
  exact ⟨⟨⟨hloop, hgoes⟩, hkept⟩, ⟨hloop', hgoes'⟩, ⟨hnone, hnext, hlatest hnone 0 hnext⟩,
    hsome, (hattends hsome).2.1⟩

/-- A report of the first connection is attended to when the second one is there, and ends it. -/
theorem overtaken_ends_connection :
    let r := run attached overtaken
    let connected := r.step (.acquired (some { port := 1, pid := 100 }))
    (connected.stage = .looping ∧ connected.reconnect.state = .connected) ∧
      (connected.nextReport? = some 1 ∧ r.subscriptions.all.length = 2) ∧
      (connected.step (.main .loss)).reconnect.state = .lost := by
  intro r connected
  exact ⟨⟨rfl, by decide⟩, ⟨by decide, by decide⟩, by decide⟩

end Shell.Run

end Vigil
