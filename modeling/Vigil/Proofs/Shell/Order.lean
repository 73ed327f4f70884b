import Vigil.Proofs.Shell.Queue

/-! In which order the events of one project come out of the queue. -/
namespace Vigil.Shell

namespace Event

/-- The event draws some project's screen. -/
def isFrame (e : Event) : Bool := e.screenOf?.isSome

/-- The event is about this project. -/
def about (project : String) (e : Event) : Bool := e.project? == some project

variable {e : Event} {project : String}

theorem about_iff : e.about project = true ↔ e.project? = some project := beq_iff_eq

theorem project?_of_screenOf? (h : e.screenOf? = some project) : e.project? = some project := by
  cases e with
  | stream subject event =>
    cases event with
    | screen frame => exact h
    | issue | rawOutput => cases h
  | overlay | ended | log => cases h

/-- A frame is about the project that it draws and no other. -/
theorem about_of_screenOf? (h : e.screenOf? = some project) (other : String) :
    e.about other = true ↔ other = project := by
  rw [about_iff, project?_of_screenOf? h, Option.some.injEq, eq_comm]

theorem draws_of_about (habout : e.about project = true) (hframe : e.isFrame = true) :
    e.screenOf? = some project := by
  obtain ⟨drawn, hdrawn⟩ := Option.isSome_iff_exists.mp hframe
  rw [(about_of_screenOf? hdrawn project).mp habout]
  exact hdrawn

theorem about_of_isLog (h : e.isLog = true) (project : String) : e.about project = false := by
  cases e with
  | log line => rfl
  | overlay | stream | ended => cases h

end Event

namespace Queue

/-- The newest frame alone, where the oldest stood; all else as it was. -/
def gathered : List Event → List Event
  | [] => []
  | e :: rest =>
    if e.isFrame then (rest.filter Event.isFrame).getLastD e :: rest.filter (!·.isFrame)
    else e :: gathered rest

/-- Of each run of frames the newest alone; all else as it was. -/
def newestOfRuns : List Event → List Event
  | [] => []
  | e :: rest =>
    if e.isFrame && rest.head?.any Event.isFrame then newestOfRuns rest
    else e :: newestOfRuns rest

/-- Nothing but frames stands between two frames. -/
def Together (events : List Event) : Prop :=
  ∀ f e f', [f, e, f'].Sublist events → f.isFrame = true → f'.isFrame = true → e.isFrame = true

variable {e e' : Event} {events rest : List Event}

/-! ### Runs of frames -/

theorem newestOfRuns_eq_self (h : ∀ x ∈ events, x.isFrame = false) :
    newestOfRuns events = events := by
  induction events with
  | nil => rfl
  | cons e rest ih =>
    obtain ⟨he, hrest⟩ := List.forall_mem_cons.mp h
    simp [newestOfRuns, he, ih hrest]

/-- Where a frame was there is one still. -/
theorem exists_isFrame_newestOfRuns (h : ∃ x ∈ events, x.isFrame = true) :
    ∃ x ∈ newestOfRuns events, x.isFrame = true := by
  fun_induction newestOfRuns events with
  | case1 => exact h
  | case2 e rest hrun ih =>
    rw [Bool.and_eq_true, Option.any_eq_true] at hrun
    obtain ⟨-, x, hx, hframe⟩ := hrun
    exact ih ⟨x, List.mem_of_head? hx, hframe⟩
  | case3 e rest hrun ih =>
    obtain ⟨x, hx, hframe⟩ := h
    rcases List.mem_cons.mp hx with rfl | hx
    · exact ⟨x, List.mem_cons_self, hframe⟩
    · obtain ⟨y, hy, hy'⟩ := ih ⟨x, hx, hframe⟩
      exact ⟨y, List.mem_cons_of_mem e hy, hy'⟩

theorem together_of_none (h : ∀ x ∈ rest, x.isFrame = false) : Together (e :: rest) := by
  intro f x f' hsub _ hf'
  have hmem : f' ∈ rest := by
    have htail : [x, f'].Sublist rest := hsub.tail
    exact htail.subset (by simp)
  rw [h f' hmem] at hf'
  cases hf'

theorem together_cons_of_other (he : e.isFrame = false) :
    Together (e :: rest) ↔ Together rest := by
  constructor
  · intro h f x f' hsub
    exact h f x f' (hsub.cons e)
  · intro h f x f' hsub hf hf'
    cases hsub with
    | cons _ hsub => exact h f x f' hsub hf hf'
    | cons_cons _ hsub =>
      rw [he] at hf
      cases hf

theorem together_cons_of_frame (he' : e'.isFrame = true) :
    Together (e :: e' :: rest) ↔ Together (e' :: rest) := by
  constructor
  · intro h f x f' hsub
    exact h f x f' (hsub.cons e)
  · intro h f x f' hsub hf hf'
    cases hsub with
    | cons _ hsub => exact h f x f' hsub hf hf'
    | cons_cons _ hsub =>
      cases hsub with
      | cons _ hsub => exact h e' x f' (hsub.cons_cons e') he' hf'
      | cons_cons _ hsub => exact he'

/-- All frames have gone into the newest: to have cut each run down to its newest is the same
exactly if there was only one run. -/
theorem gathered_eq_newestOfRuns_iff (events : List Event) :
    gathered events = newestOfRuns events ↔ Together events := by
  fun_induction newestOfRuns events with
  | case1 =>
    have htogether : Together [] := fun _ _ _ hsub => by cases hsub
    exact iff_of_true rfl htogether
  | case2 e rest hrun ih =>
    rw [Bool.and_eq_true, Option.any_eq_true] at hrun
    obtain ⟨he, e', hhead, he'⟩ := hrun
    obtain ⟨rest', rfl⟩ := List.head?_eq_some_iff.mp hhead
    have hsame : gathered (e :: e' :: rest') = gathered (e' :: rest') := by
      simp only [gathered, he, he', if_true, List.filter_cons_of_pos, List.getLastD_cons]
      simp [he']
    rw [hsame, together_cons_of_frame he', ih]
  | case3 e rest hrun ih =>
    cases he : e.isFrame with
    | false =>
      rw [together_cons_of_other he, ← ih]
      simp [gathered, he]
    | true =>
      by_cases hsome : ∃ x ∈ rest, x.isFrame = true
      · -- a frame further on, but not next: something stands between
        have hapart : ¬ Together (e :: rest) := by
          obtain ⟨x, hx, hframe⟩ := hsome
          cases rest with
          | nil => cases hx
          | cons e' rest' =>
            have he' : e'.isFrame ≠ true := by simpa [he] using hrun
            intro h
            rcases List.mem_cons.mp hx with rfl | hx
            · exact he' hframe
            · have hpair : [e', x].Sublist (e' :: rest') :=
                (List.singleton_sublist.mpr hx).cons_cons e'
              exact he' (h e e' x (hpair.cons_cons e) he hframe)
        refine iff_of_false ?_ hapart
        intro heq
        simp only [gathered, he, if_true] at heq
        obtain ⟨x, hx, hframe⟩ := exists_isFrame_newestOfRuns hsome
        rw [← (List.cons.inj heq).2] at hx
        simp [hframe] at hx
      · have hnone : ∀ x ∈ rest, x.isFrame = false := by simpa using hsome
        have hframes : rest.filter Event.isFrame = [] := by simpa using hnone
        have hothers : rest.filter (!·.isFrame) = rest := by simpa using hnone
        refine iff_of_true ?_ (together_of_none hnone)
        rw [newestOfRuns_eq_self hnone]
        simp [gathered, he, hframes, hothers]

/-! ### One event more -/

/-- The event takes the place of a frame. -/
def takePlace (e x : Event) : Event := if x.isFrame then e else x

theorem map_takePlace_eq_self (h : ∀ x ∈ events, x.isFrame = false) (e : Event) :
    events.map (takePlace e) = events := by
  have hsame : ∀ x ∈ events, takePlace e x = x := by
    intro x hx
    simp [takePlace, h x hx]
  rw [List.map_congr_left hsame, List.map_id']

/-- Events of a project that draw nothing give no place away. -/
theorem map_takePlace_of_undrawn {project : String}
    (h : events.filter (Event.draws project) = []) :
    (events.filter (Event.about project)).map (takePlace e) =
      events.filter (Event.about project) := by
  apply map_takePlace_eq_self
  intro x hx
  obtain ⟨hmem, habout⟩ := List.mem_filter.mp hx
  by_contra hframe
  have hdraws := Event.draws_of_about habout (eq_true_of_ne_false hframe)
  exact List.filter_eq_nil_iff.mp h x hmem (Event.draws_iff.mpr hdraws)

theorem gathered_concat_of_other (he : e.isFrame = false) (events : List Event) :
    gathered (events ++ [e]) = gathered events ++ [e] := by
  induction events with
  | nil => simp [gathered, he]
  | cons x rest ih =>
    cases hx : x.isFrame with
    | true => simp [gathered, hx, he]
    | false => simp [gathered, hx, ih]

theorem gathered_concat_of_first (h : ∀ x ∈ events, x.isFrame = false) (e : Event) :
    gathered (events ++ [e]) = gathered events ++ [e] := by
  induction events with
  | nil => simp [gathered]
  | cons x rest ih =>
    obtain ⟨hx, hrest⟩ := List.forall_mem_cons.mp h
    simp [gathered, hx, ih hrest]

theorem gathered_concat_of_frame (he : e.isFrame = true) (h : ∃ x ∈ events, x.isFrame = true) :
    gathered (events ++ [e]) = (gathered events).map (takePlace e) := by
  induction events with
  | nil => simp at h
  | cons x rest ih =>
    cases hx : x.isFrame with
    | true =>
      have hnewest : ((rest.filter Event.isFrame).getLastD x).isFrame = true := by
        rw [List.getLastD_eq_getLast?]
        cases hlast : (rest.filter Event.isFrame).getLast? with
        | none => exact hx
        | some y => exact (List.mem_filter.mp (List.mem_of_getLast? hlast)).2
      have hothers : ∀ y ∈ rest.filter (!·.isFrame), y.isFrame = false := by simp
      have hplace : takePlace e ((rest.filter Event.isFrame).getLastD x) = e := if_pos hnewest
      simp only [List.cons_append, gathered, hx, if_true, List.map_cons, hplace,
        map_takePlace_eq_self hothers, List.filter_append]
      simp [he]
    | false =>
      have hrest : ∃ y ∈ rest, y.isFrame = true := by simpa [hx] using h
      simp [gathered, hx, ih hrest, takePlace]

/-! ### What waits of one project -/

/-- Of each project that waits which was sent, with its frames gathered. -/
def InOrder (q : Queue) (sent : List Event) : Prop :=
  ∀ project, q.events.filter (Event.about project) = gathered (sent.filter (Event.about project))

namespace InOrder

variable {q : Queue} {sent : List Event}

theorem coalesced (h : InOrder q sent) (hkeeps : Keeps q sent) {project : String}
    {front rest : List Event} {old : Event} (he : e.screenOf? = some project)
    (hold : old.screenOf? = some project) (hfront : ∀ x ∈ front, x.screenOf? ≠ some project)
    (hq : q.events = front ++ old :: rest) :
    InOrder { q with events := front ++ e :: rest } (sent ++ [e]) := by
  intro other
  have hwaits := h other
  rw [hq] at hwaits
  by_cases hother : other = project
  · subst hother
    have habout : e.about other = true := (Event.about_of_screenOf? he other).mpr rfl
    have habout' : old.about other = true := (Event.about_of_screenOf? hold other).mpr rfl
    have hframe : e.isFrame = true := Option.isSome_iff_exists.mpr ⟨other, he⟩
    have hframe' : old.isFrame = true := Option.isSome_iff_exists.mpr ⟨other, hold⟩
    have hdrawn : ∃ x ∈ sent.filter (Event.about other), x.isFrame = true := by
      have hwaiting : ∃ x ∈ q.events, x.screenOf? = some other := ⟨old, by simp [hq], hold⟩
      obtain ⟨x, hx, hxdraws⟩ := List.mem_filterMap.mp ((hkeeps.drawn_iff other).mpr hwaiting)
      have hxabout := (Event.about_of_screenOf? hxdraws other).mpr rfl
      exact ⟨x, List.mem_filter.mpr ⟨hx, hxabout⟩, Option.isSome_iff_exists.mpr ⟨other, hxdraws⟩⟩
    obtain ⟨hbefore, hbehind⟩ := hkeeps.alone hold hfront hq
    -- On both sides of the old frame nothing else gives its place away.
    rw [filter_concat_of_pos sent habout, gathered_concat_of_frame hframe hdrawn, ← hwaits]
    simp only [List.filter_append, List.filter_cons_of_pos habout, List.filter_cons_of_pos habout',
      List.map_append, List.map_cons, map_takePlace_of_undrawn hbefore,
      map_takePlace_of_undrawn hbehind]
    rw [takePlace, if_pos hframe']
  · have habout : e.about other = false := by
      rw [Bool.eq_false_iff, Ne, Event.about_of_screenOf? he]
      exact hother
    have habout' : old.about other = false := by
      rw [Bool.eq_false_iff, Ne, Event.about_of_screenOf? hold]
      exact hother
    rw [filter_concat_of_neg sent habout, ← hwaits]
    simp [habout, habout']

/-- An event that finds a place comes behind what waits. -/
theorem appended (h : InOrder q sent) (hkeeps : Keeps q sent) (hnew : Fresh e q.events)
    {kept : List Event} (hkept : ∀ project,
      kept.filter (Event.about project) = q.events.filter (Event.about project)) (b : Bool) :
    InOrder { q with events := kept ++ [e], notified := b } (sent ++ [e]) := by
  intro project
  cases habout : e.about project with
  | false =>
    rw [filter_concat_of_neg kept habout, filter_concat_of_neg sent habout, hkept]
    exact h project
  | true =>
    rw [filter_concat_of_pos kept habout, filter_concat_of_pos sent habout, hkept, h project]
    cases hframe : e.isFrame with
    | false => rw [gathered_concat_of_other hframe]
    | true =>
      have hdraws := Event.draws_of_about habout hframe
      have hfirst : ∀ x ∈ sent.filter (Event.about project), x.isFrame = false := by
        intro x hx
        obtain ⟨hsent, hxabout⟩ := List.mem_filter.mp hx
        by_contra hxframe
        have hxdraws := Event.draws_of_about hxabout (eq_true_of_ne_false hxframe)
        exact hkeeps.not_drawn hnew project hdraws (List.mem_filterMap.mpr ⟨x, hsent, hxdraws⟩)
      rw [gathered_concat_of_first hfirst]

theorem send (h : InOrder q sent) (hkeeps : Keeps q sent)
    (hle : occupied (sent ++ [e]) ≤ q.limit) : InOrder (q.send e).1 (sent ++ [e]) := by
  have hsent := q.sent e
  generalize q.send e = out at hsent ⊢
  cases hsent with
  | coalesced he hold hfront hq => exact h.coalesced hkeeps he hold hfront hq
  | added hnew hroom => exact h.appended hkeeps hnew (fun _ => rfl) _
  | displaced hnew hfull hold hfront hq =>
    refine h.appended hkeeps hnew (fun project => ?_) _
    rw [hq]
    simp [Event.about_of_isLog hold]
  | refused hfull hnone he =>
    intro project
    rw [filter_concat_of_neg sent (Event.about_of_isLog he project)]
    exact h project
  | dropped hnew hfull hnone he =>
    rw [hkeeps.isLog_of_full hle hnew hfull hnone] at he
    cases he

theorem run {since : List Op} (hempty : q.events = []) (hsince : .drain ∉ since)
    (hle : occupied (sends since) ≤ q.limit) : InOrder (q.run since) (sends since) := by
  have hstart : Keeps q [] ∧ InOrder q [] := by
    refine ⟨.empty hempty, fun project => ?_⟩
    rw [hempty]
    rfl
  have hnotice : ∀ q sent, Keeps q sent ∧ InOrder q sent →
      Keeps q.takeNotice.1 sent ∧ InOrder q.takeNotice.1 sent :=
    fun _ _ h => ⟨h.1.takeNotice, h.2⟩
  have hsend : ∀ q sent e, occupied (sent ++ [e]) ≤ q.limit → Keeps q sent ∧ InOrder q sent →
      Keeps (q.send e).1 (sent ++ [e]) ∧ InOrder (q.send e).1 (sent ++ [e]) :=
    fun _ _ _ hle h => ⟨h.1.send hle, h.2.send h.1 hle⟩
  exact (sends_induction hstart hnotice hsend hsince hle).2

end InOrder

/-- As long as what is sent finds place, the next drain brings the events of each project in the
order in which they were sent, but for its frames: all of them have gone into the newest, which
comes where the oldest was sent. To have cut down each run of frames to its newest comes to the
same exactly if no other event of the project was sent between two frames; otherwise the newest
frame comes ahead of events that were sent before it. -/
theorem drained_of_project (maxLen : Nat) (before : List Op) {since : List Op}
    (hsince : .drain ∉ since) (hplace : occupied (sends since) ≤ max maxLen 1) (project : String) :
    let q := (((ofLimit maxLen).run before).drain.1).run since
    let sent := (sends since).filter (Event.about project)
    let drained := q.drain.2.filter (Event.about project)
    drained = gathered sent ∧ (drained = newestOfRuns sent ↔ Together sent) := by
  intro q sent drained
  have hlimit : (((ofLimit maxLen).run before).drain.1).limit = max maxLen 1 :=
    (ofLimit maxLen).run_limit before
  have horder : InOrder q (sends since) := by
    apply InOrder.run rfl hsince
    rw [hlimit]
    exact hplace
  have hdrained : drained = gathered sent := horder project
  refine ⟨hdrained, ?_⟩
  rw [hdrained]
  exact gathered_eq_newestOfRuns_iff sent

/-- Frames of two projects come in turn, with log lines that find no place; what else there is to
say of either comes behind its frames. -/
theorem twoScreens_drained :
    let since : List Op :=
      [.send (.log "a"), .send (.stream "p" (.screen {})), .send (.stream "r" (.screen {})),
        .takeNotice, .send (.stream "p" (.screen { cols := 80 })), .send (.log "b"),
        .send (.ended "r" .screen "lost"), .send (.stream "p" (.issue none))]
    (.drain ∉ since ∧ occupied (sends since) ≤ max 4 1) ∧
    let q := (((ofLimit 4).run [.send (.overlay .connecting)]).drain.1).run since
    q.drain.2.filter (Event.about "p") =
      [.stream "p" (.screen { cols := 80 }), .stream "p" (.issue none)] ∧
    Together ((sends since).filter (Event.about "p")) := by
  intro since
  have hsince : .drain ∉ since := by simp [since]
  have hplace : occupied (sends since) ≤ max 4 1 := by decide
  refine ⟨⟨hsince, hplace⟩, ?_⟩
  intro q
  obtain ⟨hgathered, hruns⟩ :=
    drained_of_project 4 [.send (.overlay .connecting)] hsince hplace "p"
  have hsame : gathered ((sends since).filter (Event.about "p")) =
      newestOfRuns ((sends since).filter (Event.about "p")) := by decide
  exact ⟨hgathered.trans (by decide), hruns.mp (hgathered.trans hsame)⟩

/-- There is place for a hundred events, and three are sent of one project: the frame behind the
issue comes out ahead of it, and the frame in front of it not at all. -/
theorem frame_overtakes_issue :
    let since : List Op :=
      [.send (.stream "p" (.screen { cols := 80 })), .send (.stream "p" (.issue none)),
        .send (.stream "p" (.screen { cols := 100 }))]
    let q := (ofLimit 100).run since
    let sent := (sends since).filter (Event.about "p")
    q.drain.2.filter (Event.about "p") =
      [.stream "p" (.screen { cols := 100 }), .stream "p" (.issue none)] ∧
    newestOfRuns sent = sent ∧ q.drain.2.filter (Event.about "p") ≠ newestOfRuns sent := by
  decide

end Queue

end Vigil.Shell
