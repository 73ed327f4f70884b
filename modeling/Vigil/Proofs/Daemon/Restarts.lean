import Vigil.Proofs.Daemon.Shares
import Vigil.Rehearsal.World

/-! The account of a watch: how often a restart is tried after a crash, how long it is put off after
each failure, and when it is given up. -/
namespace Vigil.Daemon

variable {σ : Type}

/-- A deed of a search for a daemon. -/
def Deed.isSearch : Deed → Bool
  | .readLive _ | .find _ | .launch .. => true
  | .write session => session.phase == .starting
  | .probe .. | .readLeft _ | .tell _ => false

/-- An attempt at a restart: it searches from `start` on, and tells nobody. -/
structure Trial (start : Nat) (did : List (Nat × Deed)) : Prop where
  begins : ∃ found, did.head? = some (start, .readLive found)
  searches : ∀ d ∈ did, d.2.isSearch = true

/-- So many attempts in a row have failed since a crash, and the next one begins at `start`. Each
failure is told with its number and the wait behind it; when the wait is over, or at most `late`
behind, the record was still there. -/
inductive Failing (p : RestartPolicy) (late : Nat) (pid : UInt32) :
    Nat → Nat → List (Nat × Deed) → Prop where
  | crash (start : Nat) (left : Record) (session : Session) (hphase : session.phase = .restarting) :
      Failing p late pid 0 start
        ([.probe pid false, .readLeft (some left), .write session, .tell (.crashed pid)].map
          (start, ·))
  | more {k start : Nat} {fails trial : List (Nat × Deed)} (h : Failing p late pid k start fails)
      (ht : Trial start trial) (at_ : Nat) (e : StartError) (delay : Duration)
      (hdelay : delay.nanos = min ((k + 1) * p.cooldown.nanos) p.maxCooldown.nanos)
      (hmore : ∀ limit, p.maxAttempts = some limit → k + 1 < limit) (next : Nat) (left : Record)
      (hwaited : at_ + delay.nanos ≤ next) (hlate : next ≤ at_ + delay.nanos + late) :
      Failing p late pid (k + 1) next
        (fails ++ trial ++
          [(at_, .tell (.restartFailed (k + 1) e delay)), (next, .readLeft (some left))])

/-- Looks at a daemon that is alive, and crashes that ended in a restart. Every crash counts its
failures anew. -/
inductive Settled (p : RestartPolicy) (late : Nat) : List (Nat × Deed) → Prop where
  | start : Settled p late []
  | alive {did : List (Nat × Deed)} (h : Settled p late did) (at_ : Nat) (pid : UInt32) :
      Settled p late (did ++ [(at_, .probe pid true)])
  | restarted {did fails trial : List (Nat × Deed)} (h : Settled p late did) {pid : UInt32}
      {k start : Nat} (hf : Failing p late pid k start fails) (ht : Trial start trial) (at_ : Nat)
      (r : Record) :
      Settled p late (did ++ (fails ++ trial ++
        [(at_, .write (.serving r)), (at_, .tell (.restarted r))]))

/-- What a watch has done until it came to its stage. -/
inductive Account (p : RestartPolicy) (late : Nat) : Watch → List (Nat × Deed) → Prop where
  | called : Account p late .called []
  | ticking {did : List (Nat × Deed)} (h : Settled p late did) (due : Nat) :
      Account p late (.ticking due) did
  | polling {did fails trial : List (Nat × Deed)} (h : Settled p late did) {pid : UInt32}
      {k start : Nat} (hf : Failing p late pid k start fails) (ht : Trial start trial)
      (look due : Nat) : Account p late (.polling pid k look due) (did ++ (fails ++ trial))
  | coolingDown {did fails trial : List (Nat × Deed)} (h : Settled p late did) {pid : UInt32}
      {k start : Nat} (hf : Failing p late pid k start fails) (ht : Trial start trial) (at_ : Nat)
      (e : StartError) (delay : Duration)
      (hdelay : delay.nanos = min ((k + 1) * p.cooldown.nanos) p.maxCooldown.nanos)
      (hmore : ∀ limit, p.maxAttempts = some limit → k + 1 < limit) :
      Account p late (.coolingDown pid (k + 1) (at_ + delay.nanos))
        (did ++ (fails ++ trial ++ [(at_, .tell (.restartFailed (k + 1) e delay))]))
  | abandoned {did fails trial : List (Nat × Deed)} (h : Settled p late did) {pid : UInt32}
      {k start : Nat} (hf : Failing p late pid k start fails) (ht : Trial start trial) (at_ : Nat)
      {limit : Nat} (hlimit : p.maxAttempts = some limit) (hspent : k + 1 = max limit 1) :
      Account p late (.ended .abandoned)
        (did ++ (fails ++ trial ++ [(at_, .write {}), (at_, .tell (.abandoned (k + 1)))]))
  | notRunning {did : List (Nat × Deed)} (h : Settled p late did) :
      Account p late (.ended .notRunning) did
  | gone {did : List (Nat × Deed)} (h : Settled p late did) (at_ : Nat) (pid : UInt32) :
      Account p late (.ended .shutdown)
        (did ++ [.probe pid false, .readLeft none, .write .down, .tell .shutdown].map (at_, ·))
  | goneMeanwhile {did : List (Nat × Deed)} {pid : UInt32} {k due : Nat}
      (h : Account p late (.coolingDown pid k due) did) (at_ : Nat) :
      Account p late (.ended .shutdown)
        (did ++ [.readLeft none, .write .down, .tell .shutdown].map (at_, ·))
  | stopped {did : List (Nat × Deed)} {w : Watch} {due : Nat} (h : Account p late w did)
      (hdue : w.due? = some due) : Account p late (.ended .cancelled) did

/-- The attempt that is under way, or comes behind the cool-down. -/
def Watch.attempt? : Watch → Option Nat
  | .polling _ k _ _ | .coolingDown _ k _ => some (k + 1)
  | .called | .ticking _ | .ended _ => none

/-! ### Policies -/

namespace RestartPolicy

variable (p : RestartPolicy)

/-- The wait behind a failure. That the product is cut to the largest span never shows. -/
theorem wait_nanos (k : Nat) :
    ((p.cooldown.times (max (k + 1) 1)).atMost p.maxCooldown).nanos =
      min ((k + 1) * p.cooldown.nanos) p.maxCooldown.nanos := by
  have hcap : p.maxCooldown.nanos ≤ Duration.largest := by
    have hbounded := p.maxCooldown.bounded
    unfold Duration.largest
    omega
  have hmin (a b : Duration) : (a.atMost b).nanos = min a.nanos b.nanos := by
    unfold Duration.atMost
    by_cases hle : a ≤ b
    · rw [if_pos hle]
      exact (Nat.min_eq_left hle).symm
    · rw [if_neg hle]
      exact (Nat.min_eq_right (Nat.le_of_not_le hle)).symm
  have hproduct : (p.cooldown.times (max (k + 1) 1)).nanos =
      min ((k + 1) * p.cooldown.nanos) Duration.largest := by
    rw [Nat.max_eq_left (Nat.succ_pos k), Nat.mul_comm]
    rfl
  rw [hmin, hproduct, Nat.min_assoc, Nat.min_eq_right hcap]

/-- What a policy says to a failure: how long to wait, or that the attempts are spent. -/
inductive Answers (k : Nat) : Option Duration → Prop where
  | wait (delay : Duration)
      (hdelay : delay.nanos = min ((k + 1) * p.cooldown.nanos) p.maxCooldown.nanos)
      (hmore : ∀ limit, p.maxAttempts = some limit → k + 1 < limit) : Answers k (some delay)
  | spent {limit : Nat} (hlimit : p.maxAttempts = some limit) (hspent : limit ≤ k + 1) :
      Answers k none

theorem answers (k : Nat) : p.Answers k (p.delayAfter (k + 1)) := by
  unfold delayAfter
  cases hlimit : p.maxAttempts with
  | none => exact .wait _ (p.wait_nanos k) (by simp [hlimit])
  | some limit =>
    by_cases hspent : limit ≤ k + 1
    · simpa [hspent] using Answers.spent hlimit hspent
    · have hmore : ∀ limit', p.maxAttempts = some limit' → k + 1 < limit' := by
        intro limit' hlimit'
        have hsame := Option.some.inj (hlimit.symm.trans hlimit')
        omega
      simpa [hspent] using Answers.wait _ (p.wait_nanos k) hmore

end RestartPolicy

namespace Failing

variable {p : RestartPolicy} {late : Nat} {pid : UInt32} {k start : Nat}
  {fails : List (Nat × Deed)}

/-- The attempt behind the failures is one of those that are allowed. -/
theorem lt_limit (h : Failing p late pid k start fails) {limit : Nat}
    (hlimit : p.maxAttempts = some limit) : k + 1 ≤ max limit 1 := by
  cases h with
  | crash => omega
  | more _ _ _ _ _ _ hmore =>
    have hlt := hmore limit hlimit
    omega

end Failing

/-! ### What a search adds -/

namespace Trial

variable {start : Nat} {did : List (Nat × Deed)}

theorem append (h : Trial start did) (more : List (Nat × Deed))
    (hmore : ∀ d ∈ more, d.2.isSearch = true) : Trial start (did ++ more) := by
  obtain ⟨found, hfound⟩ := h.begins
  refine ⟨⟨found, ?_⟩, List.forall_mem_append.mpr ⟨h.searches, hmore⟩⟩
  rw [List.head?_append, hfound]
  rfl

theorem of_look (start : Nat) (found : Option Record) : Trial start [(start, .readLive found)] :=
  ⟨⟨found, rfl⟩, by simp [Deed.isSearch]⟩

theorem of_opening (start : Nat) (session : Session) :
    Trial start ((Supervisor.opening session).map (start, ·)) := by
  unfold Supervisor.opening
  refine ⟨⟨none, rfl⟩, ?_⟩
  split <;> simp [Deed.isSearch]

end Trial

namespace Supervisor

variable (v : Supervisor σ) (s : Supervision σ)

/-- A search that begins is an attempt that begins. -/
theorem begin_trial : (v.begin s).2.now = s.now ∧
    ∃ trial, (v.begin s).2.timeline = s.timeline ++ trial ∧ Trial s.now trial := by
  have hb := v.begun s
  generalize (v.begin s).1 = p, (v.begin s).2 = s' at hb
  have hopening := Trial.of_opening s.now s.session
  cases hb with
  | found r => exact ⟨rfl, _, s.note_timeline _, .of_look s.now _⟩
  | notFound =>
    refine ⟨by simp, _, ?_, hopening.append [(s.now, .find none)] ?_⟩
    · simp [searching_timeline]
    · simp [Deed.isSearch]
  | refused path world reason =>
    refine ⟨by simp, _, ?_, hopening.append
      [(s.now, .find (some path)), (s.now, .launch path (some reason))] ?_⟩
    · simp [searching_timeline]
    · simp [Deed.isSearch]
  | launched path world =>
    refine ⟨by simp, _, ?_, hopening.append
      [(s.now, .find (some path)), (s.now, .launch path none)] ?_⟩
    · simp [searching_timeline]
    · simp [Deed.isSearch]

/-- A look goes on with the attempt. -/
theorem look_trial (n : Nat) : (v.look s n).2.now = s.now ∧
    ∃ found, (v.look s n).2.timeline = s.timeline ++ [(s.now, .readLive found)] := by
  have hl := v.looked s n
  generalize (v.look s n).1 = p, (v.look s n).2 = s' at hl
  cases hl with
  | found r => exact ⟨rfl, _, s.note_timeline _⟩
  | missing => exact ⟨rfl, _, s.note_timeline _⟩

end Supervisor

/-! ### What a turn adds -/

/-- Whether a turn comes at most `late` behind the end of the wait. -/
def Watch.isTimely (late : Nat) (s : Supervision σ) (cancelled : Bool) (w : Watch) : Bool :=
  cancelled || w.due?.all fun due => decide (s.now ≤ due + late)

namespace Account

variable {v : Supervisor σ} {s : Supervision σ} {late : Nat}

/-- The account goes on with what has been done since `s`. -/
def GoesOn (v : Supervisor σ) (late : Nat) (s : Supervision σ) (did : List (Nat × Deed))
    (next : Watch × Supervision σ) : Prop :=
  ∃ ds, next.2.timeline = s.timeline ++ ds ∧ Account v.policies.restart late next.1 (did ++ ds)

theorem goesOn_rest {did ds : List (Nat × Deed)} {s' : Supervision σ}
    (hs' : s'.timeline = s.timeline ++ ds) (h : Settled v.policies.restart late (did ++ ds)) :
    GoesOn v late s did (Watch.rest v s') :=
  ⟨ds, hs', .ticking h _⟩

/-- What an attempt has come to. `ds` has been done since `s`. -/
theorem goesOn_follow {did before fails trial ds : List (Nat × Deed)} {pid : UInt32}
    {k start : Nat} (h : Settled v.policies.restart late before)
    (hf : Failing v.policies.restart late pid k start fails) (ht : Trial start trial)
    {s' : Supervision σ} (hs' : s'.timeline = s.timeline ++ ds)
    (hdid : did ++ ds = before ++ (fails ++ trial)) (p : Supervisor.Progress) :
    GoesOn v late s did (Watch.follow v s' pid k p) := by
  cases p with
  | found r =>
    have hdone : did ++ (ds ++ [(s'.now, .write (.serving r)), (s'.now, .tell (.restarted r))]) =
        before ++ (fails ++ trial ++
          [(s'.now, .write (.serving r)), (s'.now, .tell (.restarted r))]) := by
      rw [← List.append_assoc, hdid, List.append_assoc]
    refine goesOn_rest ?_ (hdone ▸ h.restarted hf ht s'.now r)
    simp [hs']
  | polling look due => exact ⟨ds, hs', by rw [hdid]; exact .polling h hf ht look due⟩
  | failed e =>
    unfold Watch.follow
    have hanswers := v.policies.restart.answers k
    generalize v.policies.restart.delayAfter (k + 1) = answer at hanswers
    cases hanswers with
    | wait delay hdelay hmore =>
      refine ⟨ds ++ [(s'.now, .tell (.restartFailed (k + 1) e delay))], by simp [hs'], ?_⟩
      rw [← List.append_assoc, hdid, List.append_assoc]
      exact .coolingDown h hf ht s'.now e delay hdelay hmore
    | @spent limit hlimit hspent =>
      have hall : k + 1 = max limit 1 := by
        have hle := hf.lt_limit hlimit
        omega
      refine ⟨ds ++ [(s'.now, .write {}), (s'.now, .tell (.abandoned (k + 1)))],
        by simp [hs'], ?_⟩
      rw [← List.append_assoc, hdid, List.append_assoc]
      exact .abandoned h hf ht s'.now hlimit hall

/-- An attempt begins. -/
theorem goesOn_restart {did before fails ds : List (Nat × Deed)} {pid : UInt32} {k : Nat}
    {s' : Supervision σ} (h : Settled v.policies.restart late before)
    (hf : Failing v.policies.restart late pid k s'.now fails)
    (hs' : s'.timeline = s.timeline ++ ds) (hdid : did ++ ds = before ++ fails) :
    GoesOn v late s did (Watch.restart v s' pid k) := by
  obtain ⟨-, trial, htrial, ht⟩ := v.begin_trial s'
  have hs'' : (v.begin s').2.timeline = s.timeline ++ (ds ++ trial) := by
    rw [htrial, hs', List.append_assoc]
  refine goesOn_follow h hf ht hs'' ?_ _
  · rw [← List.append_assoc, hdid, List.append_assoc]

/-- Whatever a turn meets, the account goes on. It is at most so late. -/
theorem turn {w : Watch} {did : List (Nat × Deed)} (h : Account v.policies.restart late w did)
    (s : Supervision σ) (cancelled : Bool)
    (hlate : w.isTimely late s cancelled = true) :
    GoesOn v late s did (w.turn v s cancelled) := by
  have ht := w.turned v s cancelled
  generalize w.turn v s cancelled = p at ht ⊢
  cases ht with
  | called =>
    cases h
    exact ⟨[], by simp [Watch.rest], .ticking .start _⟩
  | ended => exact ⟨[], by simp, by simpa using h⟩
  | early => exact ⟨[], by simp, by simpa using h⟩
  | stopped hdue => exact ⟨[], by simp, by simpa using h.stopped hdue⟩
  | notRunning =>
    cases h with
    | ticking h => exact ⟨[], by simp, by simpa using Account.notRunning h⟩
  | alive hdue pid =>
    cases h with
    | ticking h => exact goesOn_rest (s.note_timeline _) (h.alive s.now pid)
  | gone hdue pid =>
    cases h with
    | ticking h => exact ⟨_, by simp [Watch.shutdown], .gone h s.now pid⟩
  | @crashed _ pid left hr =>
    obtain ⟨due, rfl, -⟩ := hr.ticking
    cases h with
    | ticking h =>
      have hphase : { s.session with phase := .restarting, watchedPid := none : Session }.phase =
          .restarting := rfl
      refine goesOn_restart h (.crash s.now left _ hphase) ?_ rfl
      simp [Supervision.sawCrash, Supervision.reportCrash]
  | looked pid k look =>
    cases h with
    | polling h hf ht =>
      obtain ⟨-, found, hlook⟩ := v.look_trial s look
      refine goesOn_follow h hf (ht.append [(s.now, .readLive found)] ?_) hlook ?_ _
      · simp [Deed.isSearch]
      · simp
  | goneMeanwhile pid k => exact ⟨_, by simp [Watch.shutdown], h.goneMeanwhile s.now⟩
  | @retried pid k due hdue left =>
    have hbehind : s.now ≤ due + late := by simpa [Watch.isTimely, Watch.due?] using hlate
    cases h with
    | coolingDown h hf ht at_ e delay hdelay hmore =>
      have hfails := hf.more ht at_ e delay hdelay hmore s.now left hdue hbehind
      refine goesOn_restart h hfails (s.note_timeline _) ?_
      simp

/-- Only where there is a limit a watch gives up. -/
theorem limited {p : RestartPolicy} {did : List (Nat × Deed)}
    (h : Account p late (.ended .abandoned) did) : ∃ limit, p.maxAttempts = some limit := by
  generalize hw : Watch.ended .abandoned = w at h
  cases h with
  | abandoned _ _ _ _ hlimit => exact ⟨_, hlimit⟩
  | _ => cases hw

theorem attempt_le {p : RestartPolicy} {w : Watch} {did : List (Nat × Deed)}
    (h : Account p late w did) {limit : Nat} (hlimit : p.maxAttempts = some limit) {a : Nat}
    (ha : w.attempt? = some a) : a ≤ max limit 1 := by
  cases h with
  | polling _ hf =>
    cases ha
    exact hf.lt_limit hlimit
  | coolingDown _ _ _ _ _ _ _ hmore =>
    have hlt := hmore limit hlimit
    cases ha
    omega
  | _ => cases ha

end Account

/-! ### Attempts in vain -/

namespace Watch

/-- Whether an attempt comes to nothing in this turn, though the record is still there. -/
def isVain (v : Supervisor σ) (s : Supervision σ) (cancelled : Bool) (w : Watch) : Bool :=
  !cancelled && w.due?.all (fun due => decide (due ≤ s.now)) &&
    (v.surroundings.live s.world).isNone && (v.surroundings.left s.world).isSome

/-- How many turns the attempts take that are left, at most. -/
def turnsLeft (looks attempts : Nat) : Watch → Nat
  | .polling _ k look _ => (looks - look) + 1 + (attempts - (k + 1)) * (looks + 1)
  | .coolingDown _ k _ => (attempts - k) * (looks + 1)
  | .called | .ticking _ | .ended _ => 0

/-- A watch that has fewer turns left for its attempts, or has given them up. -/
def Dwindles (looks attempts turns : Nat) (w : Watch) : Prop :=
  w = .ended .abandoned ∨
    ∃ a, w.attempt? = some a ∧ a ≤ attempts ∧ w.turnsLeft looks attempts < turns

theorem Dwindles.mono {looks attempts turns turns' : Nat} {w : Watch}
    (h : Dwindles looks attempts turns w) (hle : turns ≤ turns') :
    Dwindles looks attempts turns' w :=
  h.imp_right fun ⟨a, ha, hattempts, hlt⟩ => ⟨a, ha, hattempts, Nat.lt_of_lt_of_le hlt hle⟩

theorem turnsLeft_pos (looks : Nat) {attempts a : Nat} {w : Watch} (ha : w.attempt? = some a)
    (hle : a ≤ attempts) : 0 < w.turnsLeft looks attempts := by
  cases w with
  | called | ticking | ended => cases ha
  | polling =>
    simp only [turnsLeft]
    omega
  | coolingDown pid k due =>
    cases ha
    exact Nat.mul_pos (by omega) (Nat.succ_pos looks)

variable {v : Supervisor σ} {s : Supervision σ} {limit : Nat}

/-- An attempt that has just failed, or is to look for the record again. -/
theorem follow_dwindles (hlimit : v.policies.restart.maxAttempts = some limit) {pid : UInt32}
    {k look turns : Nat} (hk : k + 1 ≤ max limit 1)
    (hturns : (v.policies.start.maxAttempts + 1 - look) +
      (max limit 1 - (k + 1)) * (v.policies.start.maxAttempts + 1) < turns)
    {p : Supervisor.Progress}
    (hp : (∃ e, p = .failed e) ∨ ∃ s : Supervision σ, p = v.await s look) :
    Dwindles v.policies.start.maxAttempts (max limit 1) turns (follow v s pid k p).1 := by
  have hfailed (e : StartError) : Dwindles v.policies.start.maxAttempts (max limit 1) turns
      (follow v s pid k (.failed e)).1 := by
    unfold follow
    have hanswers := v.policies.restart.answers k
    generalize v.policies.restart.delayAfter (k + 1) = answer at hanswers
    cases hanswers with
    | spent => exact .inl rfl
    | wait delay hdelay hmore =>
      have hlt := hmore limit hlimit
      refine .inr ⟨k + 2, rfl, by omega, ?_⟩
      simp only [turnsLeft]
      omega
  rcases hp with ⟨e, rfl⟩ | ⟨s', rfl⟩
  · exact hfailed e
  · unfold Supervisor.await
    by_cases hspent : v.policies.start.maxAttempts < look
    · rw [if_pos hspent]
      exact hfailed _
    · rw [if_neg hspent]
      refine .inr ⟨k + 1, rfl, hk, ?_⟩
      simp only [follow, turnsLeft]
      omega

theorem turn_dwindles (hlimit : v.policies.restart.maxAttempts = some limit) {w : Watch} {a : Nat}
    (ha : w.attempt? = some a) (hle : a ≤ max limit 1) {cancelled : Bool}
    (hvain : w.isVain v s cancelled = true) :
    Dwindles v.policies.start.maxAttempts (max limit 1)
      (w.turnsLeft v.policies.start.maxAttempts (max limit 1)) (w.turn v s cancelled).1 := by
  simp only [isVain, Bool.and_eq_true, Bool.not_eq_true', Option.all_eq_true_iff_get,
    decide_eq_true_eq, Option.isNone_iff_eq_none] at hvain
  obtain ⟨⟨⟨rfl, hdue⟩, hlive⟩, hleft⟩ := hvain
  have ht := w.turned v s false
  generalize w.turn v s false = p at ht ⊢
  cases ht with
  | called | ended | notRunning | alive | gone => cases ha
  | crashed hr =>
    obtain ⟨due, rfl, -⟩ := hr.ticking
    cases ha
  | early hdue' hnow =>
    have hpast := hdue (by simp [hdue'])
    simp only [hdue', Option.get_some] at hpast
    omega
  | goneMeanwhile _ _ _ hnone => simp [hnone] at hleft
  | looked pid k look =>
    obtain rfl : k + 1 = a := Option.some.inj ha
    have hlook : v.look s look =
        (v.await (s.note (.readLive none)) (look + 1), s.note (.readLive none)) := by
      simp [Supervisor.look, hlive]
    rw [hlook]
    refine follow_dwindles hlimit hle ?_ (.inr ⟨_, rfl⟩)
    simp only [turnsLeft]
    omega
  | retried pid k hdue' left =>
    obtain rfl : k + 1 = a := Option.some.inj ha
    have hbegin : (∃ e, (v.begin (s.note (.readLeft (some left)))).1 = .failed e) ∨
        ∃ s' : Supervision σ, (v.begin (s.note (.readLeft (some left)))).1 = v.await s' 1 := by
      have hb := v.begun (s.note (.readLeft (some left)))
      generalize (v.begin (s.note (.readLeft (some left)))).1 = p,
        (v.begin (s.note (.readLeft (some left)))).2 = s' at hb
      cases hb with
      | found r hlive' => cases hlive.symm.trans hlive'
      | notFound | refused => exact .inl ⟨_, rfl⟩
      | launched => exact .inr ⟨_, rfl⟩
    refine follow_dwindles hlimit hle ?_ hbegin
    have hsplit : max limit 1 - k = max limit 1 - (k + 1) + 1 := by omega
    simp only [turnsLeft, hsplit, Nat.succ_mul]
    omega

theorem follow_abandoned {pid : UInt32} {k : Nat} {p : Supervisor.Progress}
    (h : (follow v s pid k p).1 = .ended .abandoned) : (follow v s pid k p).2.session = {} := by
  cases p with
  | found | polling => cases h
  | failed e =>
    unfold follow at h ⊢
    cases hdelay : v.policies.restart.delayAfter (k + 1) with
    | none => rfl
    | some delay =>
      rw [hdelay] at h
      cases h

/-- A watch that gives up leaves a blank session. -/
theorem turn_abandoned {w : Watch} {cancelled : Bool} (hw : w ≠ .ended .abandoned)
    (h : (w.turn v s cancelled).1 = .ended .abandoned) : (w.turn v s cancelled).2.session = {} := by
  have ht := w.turned v s cancelled
  generalize w.turn v s cancelled = p at ht h ⊢
  cases ht with
  | ended => exact absurd h hw
  | early => exact absurd h hw
  | called | stopped | notRunning | alive | gone | goneMeanwhile => cases h
  | crashed | looked | retried => exact follow_abandoned h

end Watch

/-! ### A watch among others -/

namespace Crew

/-- Whether `P` holds of every turn of one watch. -/
def watchTurns (P : Supervision σ → Bool → Watch → Bool) (v : Supervisor σ) (n : Nat) :
    Crew σ → List (Move σ) → Bool
  | _, [] => true
  | c, move :: rest =>
    (match move, c.workers[n]?.bind Worker.watch? with
      | .turn k m, some w => k != n || P (c.state.meet m) m.cancelled w
      | _, _ => true) && watchTurns P v n (step v c move) rest

variable {v : Supervisor σ} {c : Crew σ} {n late : Nat}

theorem watchTurns_turn {P : Supervision σ → Bool → Watch → Bool} {m : Moment σ}
    {rest : List (Move σ)} {w : Watch} (hw : c.workers[n]? = some (.watcher w))
    (h : watchTurns P v n c (.turn n m :: rest) = true) :
    P (c.state.meet m) m.cancelled w = true ∧
      watchTurns P v n (step v c (.turn n m)) rest = true := by
  simpa [watchTurns, hw, Worker.watch?] using h

theorem watchTurns_tail {P : Supervision σ → Bool → Watch → Bool} {move : Move σ}
    {rest : List (Move σ)} (h : watchTurns P v n c (move :: rest) = true) :
    watchTurns P v n (step v c move) rest = true :=
  (Bool.and_eq_true_iff.mp h).2

/-- What one of the crew has done, if he watches, is the account of his stage. -/
def Accounted (v : Supervisor σ) (late n : Nat) (c : Crew σ) (did : List (Nat × Deed)) : Prop :=
  (c.workers[n]? = none → did = []) ∧
    ∀ w, c.workers[n]? = some (.watcher w) → Account v.policies.restart late w did

theorem Accounted.step {did : List (Nat × Deed)} (h : Accounted v late n c did) {move : Move σ}
    {rest : List (Move σ)} (hlate : watchTurns (Watch.isTimely late) v n c (move :: rest) = true) :
    Accounted v late n (step v c move)
      (did ++ if move.isTurnOf n then added v c move else []) := by
  cases hworker : c.workers[n]? with
  | none =>
    have hnothing : (if move.isTurnOf n then added v c move else []) = [] := by
      split
      · rename_i hmove
        obtain ⟨m, rfl⟩ := Move.eq_turn hmove
        simp [added, step_turn_of_none hworker]
      · rfl
    rw [hnothing, List.append_nil]
    refine ⟨fun _ => h.1 hworker, fun w hw => ?_⟩
    rcases step_new hworker move hw with hnew | hnew
    · cases hnew
    · cases hnew
      rw [h.1 hworker]
      exact .called
  | some worker =>
    cases hmove : move.isTurnOf n with
    | false =>
      have hsame := step_other (v := v) hworker hmove
      rw [if_neg Bool.false_ne_true, List.append_nil]
      unfold Accounted
      rw [hsame, ← hworker]
      exact h
    | true =>
      obtain ⟨m, rfl⟩ := Move.eq_turn hmove
      have hn : n < c.workers.length := (List.getElem?_eq_some_iff.mp hworker).1
      have hturned : (Crew.step v c (.turn n m)).workers[n]? =
          some (worker.turn v (c.state.meet m) m.cancelled).1 := by
        rw [step_turn_of_some hworker]
        exact List.getElem?_set_self hn
      unfold Accounted
      rw [hturned]
      refine ⟨fun hnone => absurd hnone (Option.some_ne_none _), fun w hw => ?_⟩
      cases worker with
      | caller e => cases hw
      | watcher w₀ =>
        obtain ⟨ds, hds, haccount⟩ :=
          (h.2 w₀ hworker).turn (c.state.meet m) m.cancelled (watchTurns_turn hworker hlate).1
        rw [if_pos rfl, added_of_turn hworker m hds]
        cases hw
        exact haccount

theorem Accounted.run {did : List (Nat × Deed)} (h : Accounted v late n c did)
    {moves : List (Move σ)} (hlate : watchTurns (Watch.isTimely late) v n c moves = true) :
    Accounted v late n (Crew.run v c moves) (did ++ share v n c moves) := by
  induction moves generalizing c did with
  | nil => simpa [share, Crew.run] using h
  | cons move rest ih =>
    have hrest := ih (h.step hlate) (watchTurns_tail hlate)
    rwa [List.append_assoc] at hrest

/-- A restart that comes to nothing turn after turn is given up in the end. -/
theorem run_vain {limit : Nat} (hlimit : v.policies.restart.maxAttempts = some limit)
    {later : List (Move σ)} {w : Watch} (hw : c.workers[n]? = some (.watcher w))
    (hdwindles : w.Dwindles v.policies.start.maxAttempts (max limit 1)
      (later.countP (·.isTurnOf n) + 1))
    (hvain : watchTurns (Watch.isVain v) v n c later = true) :
    (run v c later).workers[n]? = some (.watcher (.ended .abandoned)) := by
  induction later generalizing c w with
  | nil =>
    rcases hdwindles with rfl | ⟨a, ha, hle, hturns⟩
    · exact hw
    · have hpos := Watch.turnsLeft_pos v.policies.start.maxAttempts ha hle
      simp only [List.countP_nil] at hturns
      omega
  | cons move rest ih =>
    cases hmove : move.isTurnOf n with
    | false =>
      rw [List.countP_cons_of_neg (by simp [hmove])] at hdwindles
      exact ih (step_other hw hmove) hdwindles (watchTurns_tail hvain)
    | true =>
      obtain ⟨m, rfl⟩ := Move.eq_turn hmove
      have hn : n < c.workers.length := (List.getElem?_eq_some_iff.mp hw).1
      have hturned : (step v c (.turn n m)).workers[n]? =
          some (.watcher (w.turn v (c.state.meet m) m.cancelled).1) := by
        rw [step_turn_of_some hw]
        exact List.getElem?_set_self hn
      refine ih hturned ?_ (watchTurns_tail hvain)
      rcases hdwindles with rfl | ⟨a, ha, hle, hturns⟩
      · exact .inl rfl
      · rw [List.countP_cons_of_pos (by simp [hmove])] at hturns
        exact (Watch.turn_dwindles hlimit ha hle (watchTurns_turn hw hvain).1).mono (by omega)

end Crew

/-- The account of a watch on a shared supervisor, however calls and other watches take turns with
it and whatever the surroundings are. No turn of it comes more than `late` behind the end of its
wait; if that is zero, an attempt behind a failure begins exactly when the wait is over. Since its
last restart its failures are numbered from the crash on, and each is told with the cool-down times
its number, up to the cap. With a limit no crash is followed by more attempts than that, or by more
than one if the limit is zero; and attempts that come to nothing, turn after turn, while the record
is still there, use up this number, which is told, and leave a blank session. Without a limit
nothing is given up. -/
theorem restarts_accounted (v : Supervisor σ) (world : σ) (moves : List (Move σ)) (n late : Nat)
    {w : Watch} (hw : (Crew.run v (.fresh world) moves).workers[n]? = some (.watcher w))
    (hlate : Crew.watchTurns (Watch.isTimely late) v n (.fresh world) moves = true) :
    let p := v.policies.restart
    let c := Crew.run v (.fresh world) moves
    Account p late w (Crew.share v n (.fresh world) moves) ∧
      (p.maxAttempts = none → w ≠ .ended .abandoned) ∧
      (∀ limit, p.maxAttempts = some limit →
        (∀ attempt, w.attempt? = some attempt → attempt ≤ max limit 1) ∧
        ∀ later, w.attempt?.isSome = true →
          Crew.watchTurns (Watch.isVain v) v n c later = true →
          w.turnsLeft v.policies.start.maxAttempts (max limit 1) ≤
            later.countP (·.isTurnOf n) →
          (Crew.run v c later).workers[n]? = some (.watcher (.ended .abandoned))) ∧
      ∀ m, w ≠ .ended .abandoned →
        (Crew.step v c (.turn n m)).workers[n]? = some (.watcher (.ended .abandoned)) →
        (Crew.step v c (.turn n m)).state.session = {} := by
  intro p c
  have hfresh : Crew.Accounted v late n (.fresh world) [] :=
    ⟨fun _ => rfl, fun w hw => by cases hw⟩
  have haccount : Account p late w (Crew.share v n (.fresh world) moves) :=
    (hfresh.run hlate).2 w hw
  refine ⟨haccount, ?_, ?_, ?_⟩
  · rintro hnone rfl
    obtain ⟨limit, hlimit⟩ := haccount.limited
    cases hnone.symm.trans hlimit
  · intro limit hlimit
    have hle : ∀ attempt, w.attempt? = some attempt → attempt ≤ max limit 1 :=
      fun _ => haccount.attempt_le hlimit
    refine ⟨hle, fun later hsome hvain hturns => ?_⟩
    obtain ⟨attempt, hattempt⟩ := Option.isSome_iff_exists.mp hsome
    refine Crew.run_vain hlimit hw (.inr ⟨attempt, hattempt, hle attempt hattempt, ?_⟩) hvain
    omega
  · intro m hne hover
    have hn : n < c.workers.length := (List.getElem?_eq_some_iff.mp hw).1
    rw [Crew.step_turn_of_some hw, List.getElem?_set_self hn] at hover
    rw [Crew.step_turn_of_some hw]
    have hstage : (w.turn v (c.state.meet m) m.cancelled).1 = .ended .abandoned := by
      simpa [Worker.turn] using hover
    exact Watch.turn_abandoned hne hstage

/-- Two attempts are allowed, and a daemon that is launched is not waited for. The first attempt
behind a crash fails at once, the second when the cool-down is over. -/
theorem second_attempt_last :
    let v : Supervisor Rehearsal.World := ⟨Rehearsal.World.surroundings,
      { start := { maxAttempts := 0 }, restart := { maxAttempts := some 2 } }⟩
    let before : Rehearsal.World := { record := some { port := 1, pid := 100 }, alive := [100] }
    let dead : Rehearsal.World := { before with alive := [] }
    let moves : List (Move Rehearsal.World) := [.call, .turn 0 { world := before }, .watch,
      .turn 1 { world := before }, .turn 1 { world := dead, elapsed := 2_000_000_000 }]
    let m : Moment Rehearsal.World := { world := dead, elapsed := 5_000_000_000 }
    let c := Crew.run v (.fresh before) moves
    let w : Watch := .coolingDown 100 1 7_000_000_000
    c.workers[1]? = some (.watcher w) ∧
      Crew.watchTurns (Watch.isTimely 0) v 1 (.fresh before) moves = true ∧
      Account v.policies.restart 0 w (Crew.share v 1 (.fresh before) moves) ∧
      Crew.watchTurns (Watch.isVain v) v 1 c [.turn 1 m] = true ∧
      (Crew.step v c (.turn 1 m)).workers[1]? = some (.watcher (.ended .abandoned)) ∧
      (Crew.step v c (.turn 1 m)).state.session = {} ∧
      (7_000_000_000, .abandoned 2) ∈ (Crew.step v c (.turn 1 m)).state.notices := by
  intro v before dead moves m c w
  have hw : c.workers[1]? = some (.watcher w) := Crew.watcher_of_watch (by decide)
  have hlate : Crew.watchTurns (Watch.isTimely 0) v 1 (.fresh before) moves = true := by decide
  obtain ⟨haccount, -, hlimit, hblank⟩ := restarts_accounted v before moves 1 0 hw hlate
  have hc : Crew.run v (.fresh before) moves = c := rfl
  rw [hc] at hblank
  have hvain : Crew.watchTurns (Watch.isVain v) v 1 c [.turn 1 m] = true := by decide
  have hover := (hlimit 2 rfl).2 [.turn 1 m] rfl hvain (by decide)
  rw [Crew.run_singleton] at hover
  have htold : (7_000_000_000, .abandoned 2) ∈ (Crew.step v c (.turn 1 m)).state.notices := by
    decide
  exact ⟨hw, hlate, haccount, hvain, hover, hblank m nofun hover, htold⟩

end Vigil.Daemon
