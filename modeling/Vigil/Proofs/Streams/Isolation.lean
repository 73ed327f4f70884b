import Mathlib.Algebra.BigOperators.Group.List.Basic
import Mathlib.Algebra.GroupWithZero.Nat
import Vigil.Proofs.Streams.Cancellations
import Vigil.Proofs.Streams.Removals

/-! Subjects do not notice each other: a run and what is left of it when all that concerns only
other subjects is taken out are the same to the subscriptions of one subject. -/
namespace Vigil

namespace Subscription

/-- Whether the task behind a subscription has something to do. -/
def isReady (s : Subscription) (answer : Subscriptions.Answer) : Bool :=
  match s.pump with
  | .called => true
  | .opening => s.cancelled || answer != .later
  | .reading => s.cancelled || !s.inbox.isEmpty
  | .done => false

/-- A bound on the turns that are left to its task. -/
def turnsLeft (s : Subscription) : Nat :=
  s.inbox.length + match s.pump with
    | .called => 3
    | .opening => 2
    | .reading => 1
    | .done => 0

namespace Course

variable {c : Course} {answer : Subscriptions.Answer}

theorem turn_of_idle (h : c.sub.isReady answer = false) : c.turn answer = c := by
  unfold isReady at h
  unfold turn
  cases hp : c.sub.pump with
  | called => simp [hp] at h
  | done => rfl
  | opening =>
    obtain ⟨hc, ha⟩ : c.sub.cancelled = false ∧ answer = .later := by simpa [hp] using h
    simp [hc, ha]
  | reading =>
    obtain ⟨hc, hi⟩ : c.sub.cancelled = false ∧ c.sub.inbox = [] := by simpa [hp] using h
    simp [hc, hi]

theorem turnsLeft_finish (c : Course) (how : StreamEnd) : (c.finish how).sub.turnsLeft = 0 := by
  cases hl : c.sub.live with
  | true => rw [finish_of_live hl]; rfl
  | false => rw [finish_of_over hl]; rfl

/-- Who has something to do comes nearer to having nothing to do. -/
theorem turnsLeft_turn (h : c.sub.isReady answer = true) :
    (c.turn answer).sub.turnsLeft < c.sub.turnsLeft := by
  have hfinish (how : StreamEnd) (hp : c.sub.pump ≠ .done) :
      (c.finish how).sub.turnsLeft < c.sub.turnsLeft := by
    rw [turnsLeft_finish, turnsLeft]
    cases hpump : c.sub.pump with
    | done => exact absurd hpump hp
    | called | opening | reading => simp
  unfold isReady at h
  unfold turn
  cases hp : c.sub.pump with
  | done => simp [hp] at h
  | called =>
    cases hc : c.sub.cancelled with
    | true => simpa using hfinish .cancelled (by simp [hp])
    | false => simp [turnsLeft, note, update, hp]
  | opening =>
    cases hc : c.sub.cancelled with
    | true => simpa using hfinish .cancelled (by simp [hp])
    | false =>
      cases answer with
      | later => simp [hp, hc] at h
      | granted => simp [turnsLeft, update, hp]
      | refused status => simpa using hfinish (.ofStatus status) (by simp [hp])
  | reading =>
    cases hc : c.sub.cancelled with
    | true => simpa using hfinish .cancelled (by simp [hp])
    | false =>
      cases hi : c.sub.inbox with
      | nil => simp [hp, hc, hi] at h
      | cons item rest =>
        cases item with
        | error status => simpa using hfinish (.ofStatus status) (by simp [hp])
        | close => simpa using hfinish .completed (by simp [hp])
        | event e =>
          cases hl : c.sub.live with
          | true => simp [turnsLeft, note, update, hp, hi]
          | false => simpa using hfinish .cancelled (by simp [hp])

theorem run_turns_of_idle (h : c.sub.isReady answer = false) (k : Nat) :
    c.run (List.replicate k (.turn answer)) = c := by
  induction k with
  | zero => rfl
  | succ k ih =>
    have hturn := turn_of_idle h
    calc c.run (List.replicate (k + 1) (.turn answer))
        = (c.turn answer).run (List.replicate k (.turn answer)) := rfl
      _ = c := by rw [hturn, ih]

/-- However many turns are taken, there is one state without anything left to do. -/
theorem rest_unique {k k' : Nat}
    (hk : (c.run (List.replicate k (.turn answer))).sub.isReady answer = false)
    (hk' : (c.run (List.replicate k' (.turn answer))).sub.isReady answer = false) :
    c.run (List.replicate k (.turn answer)) = c.run (List.replicate k' (.turn answer)) := by
  have hle {i j : Nat} (hij : i ≤ j)
      (hi : (c.run (List.replicate i (.turn answer))).sub.isReady answer = false) :
      c.run (List.replicate j (.turn answer)) = c.run (List.replicate i (.turn answer)) := by
    obtain ⟨more, rfl⟩ := Nat.exists_eq_add_of_le hij
    rw [List.replicate_add, run_append, run_turns_of_idle hi]
  rcases Nat.le_total k k' with hkk | hkk
  · exact (hle hkk hk).symm
  · exact hle hkk hk'

end Course

end Subscription

namespace Subscriptions

open Subscription (Act Course)

variable {m m' : Subscriptions} {subject : String}

/-! ### Settling -/

def keys (m : Subscriptions) : List StreamKey := m.standing.map Prod.fst

theorem keys_step (m : Subscriptions) (s : Step) : (m.step s).keys = m.keys ++ subscribed [s] :=
  m.step_keys s

theorem keys_of_course? {n : Nat} {c : Course} (hc : m.course? n = some c) :
    m.keys[n]? = some c.sub.key := by
  simp [keys, standing, all_of_course? hc]

theorem course_of_keys {n : Nat} {key : StreamKey} (hn : m.keys[n]? = some key) :
    ∃ c, m.course? n = some c ∧ c.sub.key = key := by
  obtain ⟨⟨k, live⟩, hstanding, rfl⟩ : ∃ p, m.standing[n]? = some p ∧ p.1 = key := by
    simpa [keys, Option.map_eq_some_iff] using hn
  obtain ⟨s, hs, rfl, -⟩ := standing_eq_some_iff.mp hstanding
  exact ⟨⟨s, m.deedsOf n⟩, by rw [course?, hs, Option.map_some], rfl⟩

theorem keys_getElem? (m : Subscriptions) (id : Nat) : m.keys[id]? = m.all[id]?.map (·.key) := by
  simp [keys, standing, Function.comp_def]

theorem length_keys (m : Subscriptions) : m.keys.length = m.all.length := by
  simp [keys]

/-- Tasks go on, in any order, until none of them has anything left to do; what the other side says
to a request depends on its key. -/
inductive Settles (answers : StreamKey → Answer) : Subscriptions → Subscriptions → Prop where
  | rest {m : Subscriptions} (h : ∀ s ∈ m.all, s.isReady (answers s.key) = false) :
      Settles answers m m
  | turn {m m' : Subscriptions} (id : Nat) {s : Subscription} (hs : m.all[id]? = some s)
      (h : Settles answers (m.turn (answers s.key) id) m') : Settles answers m m'

namespace Settles

variable {answers : StreamKey → Answer}

theorem kept {P : Subscriptions → Prop} (hP : ∀ m id answer, P m → P (m.turn answer id))
    (h : Settles answers m m') (hm : P m) : P m' := by
  induction h with
  | rest => exact hm
  | @turn m m' id s hs h ih => exact ih (hP m id (answers s.key) hm)

theorem registered (h : Settles answers m m') (hm : Registered m) : Registered m' :=
  h.kept (fun _ id answer h => h.step (.turn id answer)) hm

theorem known (h : Settles answers m m') (hm : Known m) : Known m' :=
  h.kept (fun _ id answer h => h.turn answer id) hm

theorem keys (h : Settles answers m m') : m'.keys = m.keys := by
  refine h.kept (P := fun m' => m'.keys = m.keys) (fun m id answer hkeys => ?_) rfl
  have hstep := keys_step m (.turn id answer)
  rw [← hkeys]
  exact hstep.trans (List.append_nil _)

/-- To each subscription a settle is as many turns as bring it to rest. -/
theorem course? (h : Settles answers m m') {n : Nat} {c : Course} (hc : m.course? n = some c) :
    ∃ k, let c' := c.run (List.replicate k (.turn (answers c.sub.key)))
      m'.course? n = some c' ∧ c'.sub.isReady (answers c.sub.key) = false := by
  induction h generalizing c with
  | rest h => exact ⟨0, hc, h c.sub (List.mem_of_getElem? (all_of_course? hc))⟩
  | @turn m m' id s hs h ih =>
    by_cases hid : id = n
    · subst hid
      obtain rfl : s = c.sub := Option.some.inj (hs.symm.trans (all_of_course? hc))
      have hkey := c.step_key (.turn (answers c.sub.key))
      obtain ⟨k, hcourse, hidle⟩ := ih (course?_turn_self hc (answers c.sub.key))
      have hkey : (c.turn (answers c.sub.key)).sub.key = c.sub.key := hkey
      rw [hkey] at hcourse hidle
      exact ⟨k + 1, hcourse, hidle⟩
    · exact ih ((course?_turn_of_ne hid (answers s.key)).trans hc)

end Settles

/-- A bound on the turns that are left to all tasks together. -/
def turnsLeft (m : Subscriptions) : Nat := (m.all.map (·.turnsLeft)).sum

theorem turnsLeft_turn {id : Nat} {s : Subscription} {answer : Answer}
    (hs : m.all[id]? = some s) (hready : s.isReady answer = true) :
    (m.turn answer id).turnsLeft < m.turnsLeft := by
  obtain ⟨hlt, hget⟩ := List.getElem?_eq_some_iff.mp hs
  have hc : m.course? id = some ⟨s, m.deedsOf id⟩ := by rw [course?, hs, Option.map_some]
  let s' := (Course.turn ⟨s, m.deedsOf id⟩ answer).sub
  have hless : s'.turnsLeft < s.turnsLeft := Course.turnsLeft_turn (c := ⟨s, _⟩) hready
  have hall : (m.turn answer id).all = m.all.set id s' := by
    apply List.ext_getElem?
    intro i
    rw [List.getElem?_set]
    by_cases hi : id = i
    · subst hi
      rw [if_pos rfl, if_pos hlt]
      exact all_of_course? (course?_turn_self hc answer)
    · have hsame := congrArg (Option.map Course.sub) (course?_turn_of_ne hi answer (m := m))
      simpa [course?, Function.comp_def, hi] using hsame
  have hold := List.sum_take_add_sum_drop (m.all.map (·.turnsLeft)) id
  have hdrop : ((m.all.map (·.turnsLeft)).drop id).sum =
      s.turnsLeft + ((m.all.map (·.turnsLeft)).drop (id + 1)).sum := by
    rw [List.drop_eq_getElem_cons (by simpa using hlt), List.sum_cons, List.getElem_map, hget]
  have hnew := List.sum_set (m.all.map (·.turnsLeft)) id s'.turnsLeft
  rw [if_pos (by simpa using hlt)] at hnew
  rw [turnsLeft, turnsLeft, hall, List.map_set, hnew]
  omega

theorem exists_settles (answers : StreamKey → Answer) (m : Subscriptions) :
    ∃ m', Settles answers m m' := by
  by_cases h : ∀ s ∈ m.all, s.isReady (answers s.key) = false
  · exact ⟨m, .rest h⟩
  · simp only [not_forall, Bool.not_eq_false] at h
    obtain ⟨s, hmem, hready⟩ := h
    obtain ⟨id, hs⟩ := List.mem_iff_getElem?.mp hmem
    have hless := turnsLeft_turn hs hready
    obtain ⟨m', hrest⟩ := exists_settles answers (m.turn (answers s.key) id)
    exact ⟨m', .turn id hs hrest⟩
termination_by m.turnsLeft

/-! ### One subject's part -/

/-- How many subscriptions of a subject come before one. -/
def rank (subject : String) (keys : List StreamKey) (n : Nat) : Nat :=
  (keys.take n).countP (·.subject == subject)

section Rank

variable {keys : List StreamKey}

theorem rank_append {n : Nat} (hn : n ≤ keys.length) (more : List StreamKey) :
    rank subject (keys ++ more) n = rank subject keys n := by
  rw [rank, rank, List.take_append_of_le_length hn]

theorem rank_length (subject : String) (keys : List StreamKey) :
    rank subject keys keys.length = keys.countP (·.subject == subject) := by
  rw [rank, List.take_length]

theorem rank_lt {i n : Nat} {key : StreamKey} (hi : keys[i]? = some key)
    (hkey : key.subject = subject) (hin : i < n) :
    rank subject keys i < rank subject keys n := by
  have hnext : rank subject keys (i + 1) = rank subject keys i + 1 := by
    simp [rank, List.take_add_one, hi, List.countP_append, hkey]
  have hmono : rank subject keys (i + 1) ≤ rank subject keys n :=
    (List.take_prefix_take_left hin).sublist.countP_le
  omega

theorem rank_inj {i n : Nat} {ki kn : StreamKey} (hi : keys[i]? = some ki)
    (hki : ki.subject = subject) (hn : keys[n]? = some kn) (hkn : kn.subject = subject) :
    rank subject keys i = rank subject keys n ↔ i = n := by
  constructor
  · intro heq
    rcases Nat.lt_trichotomy i n with hlt | hsame | hlt
    · have hless := rank_lt hi hki hlt
      omega
    · exact hsame
    · have hless := rank_lt hn hkn hlt
      omega
  · exact congrArg _

/-- Every number below the count is the rank of one of the subject. -/
theorem exists_rank {i : Nat} (hi : i < keys.countP (·.subject == subject)) :
    ∃ n key, keys[n]? = some key ∧ key.subject = subject ∧ rank subject keys n = i := by
  induction keys generalizing i with
  | nil => simp at hi
  | cons k rest ih =>
    have hrank (n : Nat) : rank subject (k :: rest) (n + 1) =
        rank subject rest n + if k.subject = subject then 1 else 0 := by
      simp [rank, List.countP_cons]
    rw [List.countP_cons] at hi
    by_cases hk : k.subject = subject
    · cases i with
      | zero => exact ⟨0, k, rfl, hk, rfl⟩
      | succ i =>
        obtain ⟨n, key, hn, hkey, rfl⟩ := ih (i := i) (by simpa [hk] using hi)
        exact ⟨n + 1, key, hn, hkey, by rw [hrank, if_pos hk]⟩
    · obtain ⟨n, key, hn, hkey, rfl⟩ := ih (i := i) (by simpa [hk] using hi)
      exact ⟨n + 1, key, hn, hkey, by rw [hrank, if_neg hk, Nat.add_zero]⟩

end Rank

/-- What is left of a step when it is about one subject only: nothing if it concerns none but
others, and else the same under the numbers of the subscriptions without the others'. -/
def Step.only? (subject : String) (keys : List StreamKey) : Step → Option Step
  | .subscribe key => if key.subject = subject then some (.subscribe key) else none
  | .unsubscribe key => if key.subject = subject then some (.unsubscribe key) else none
  | .unsubscribeAll other => if other = subject then some (.unsubscribeAll other) else none
  | .unsubscribeEverything => some .unsubscribeEverything
  | .cancel n => if own n then some (.cancel (rank subject keys n)) else none
  | .receive n item => if own n then some (.receive (rank subject keys n) item) else none
  | .turn n answer => if own n then some (.turn (rank subject keys n) answer) else none
where
  own (n : Nat) : Bool := keys[n]?.any (·.subject == subject)

/-- What is left of a step is to a subscription of the subject what the step was. -/
theorem Step.actOn_only {keys : List StreamKey} {n : Nat} {key : StreamKey}
    (hn : keys[n]? = some key) (hkey : key.subject = subject) (s : Step) :
    (s.only? subject keys).bind (·.actOn (rank subject keys n) key) = s.actOn n key := by
  have hnumbered (i : Nat) (f : Nat → Step) (a : Act)
      (hf : ∀ i n, (f i).actOn n key = if i = n then some a else none) :
      (if only?.own subject keys i then some (f (rank subject keys i)) else none).bind
        (·.actOn (rank subject keys n) key) = if i = n then some a else none := by
    cases hi : keys[i]? with
    | none =>
      have hne : i ≠ n := by
        rintro rfl
        exact nomatch hi.symm.trans hn
      simp [only?.own, hi, hne]
    | some k =>
      by_cases hk : k.subject = subject
      · simp [only?.own, hi, hk, hf, rank_inj hi hk hn hkey]
      · have hne : i ≠ n := by
          rintro rfl
          obtain rfl : key = k := Option.some.inj (hn.symm.trans hi)
          exact hk hkey
        simp [only?.own, hi, hk, hne]
  have hkeyed (s : Step) (about : Prop) [Decidable about]
      (hs : ∀ i n, s.actOn i key = s.actOn n key) (hnot : ¬about → s.actOn n key = none) :
      (if about then some s else none).bind (·.actOn (rank subject keys n) key) =
        s.actOn n key := by
    by_cases habout : about
    · rw [if_pos habout]
      exact hs _ n
    · rw [if_neg habout, hnot habout]
      rfl
  cases s with
  | subscribe k | unsubscribe k =>
    refine hkeyed _ _ (fun _ _ => rfl) fun hother => ?_
    have hne : key ≠ k := fun heq => hother (heq ▸ hkey)
    simp [actOn, drops?, hne]
  | unsubscribeAll other =>
    refine hkeyed _ _ (fun _ _ => rfl) fun hother => ?_
    have hne : key.subject ≠ other := fun heq => hother (heq ▸ hkey)
    simp [actOn, drops?, hne]
  | unsubscribeEverything => rfl
  | cancel i => exact hnumbered i .cancel .cancel fun _ _ => rfl
  | receive i item => exact hnumbered i (.receive · item) (.receive item) fun _ _ => rfl
  | turn i answer => exact hnumbered i (.turn · answer) (.turn answer) fun _ _ => rfl

/-- To whom is subscribed and who can be numbered stays right. -/
theorem subscribed_only (subject : String) (keys : List StreamKey) (s : Step) :
    subscribed (s.only? subject keys).toList =
      (subscribed [s]).filter (·.subject == subject) := by
  cases s with
  | subscribe key | unsubscribe key | unsubscribeAll key =>
    simp only [Step.only?]
    split <;> simp_all [subscribed]
  | unsubscribeEverything => rfl
  | cancel | receive | turn =>
    simp only [Step.only?]
    split <;> rfl

theorem length_run (m : Subscriptions) (steps : List Step) :
    (m.run steps).all.length = m.all.length + (subscribed steps).length := by
  have h := congrArg List.length (m.run_keys steps)
  simpa using h

/-! ### Two runs -/

/-- Each subscription of the subject is the same in both, and the second has no others. -/
structure Mirrors (subject : String) (m m' : Subscriptions) : Prop where
  length : m'.all.length = m.keys.countP (·.subject == subject)
  course : ∀ n c, m.course? n = some c → c.sub.key.subject = subject →
    m'.course? (rank subject m.keys n) = some c

namespace Mirrors

theorem step (h : Mirrors subject m m') (hreg : Registered m) (hknown : Known m)
    (hreg' : Registered m') (hknown' : Known m') (s : Step) :
    Mirrors subject (m.step s) (m'.run (s.only? subject m.keys).toList) := by
  have hsubscribed := subscribed_only subject m.keys s
  refine ⟨?_, fun n c' hc' hsubject => ?_⟩
  · rw [length_run, hsubscribed, keys_step, List.countP_append, h.length,
      List.countP_eq_length_filter (l := subscribed [s])]
  · cases hc : m.course? n with
    | none =>
      rw [course?_step_of_none hknown hc] at hc'
      cases s with
      | subscribe key =>
        obtain ⟨rfl, rfl⟩ : n = m.all.length ∧ ⟨{ key }, []⟩ = c' := by simpa using hc'
        have hrank : rank subject (m.step (.subscribe key)).keys m.all.length = m'.all.length := by
          rw [keys_step, rank_append (Nat.le_of_eq m.length_keys.symm), ← m.length_keys,
            rank_length, h.length]
        have honly : Step.only? subject m.keys (.subscribe key) = some (.subscribe key) :=
          if_pos hsubject
        rw [hrank, honly]
        exact course?_subscribe_new hknown' key
      | unsubscribe | unsubscribeAll | unsubscribeEverything | cancel | receive | turn =>
        cases hc'
    | some c =>
      have hn := keys_of_course? hc
      obtain rfl : c.run (s.actOn n c.sub.key).toList = c' :=
        Option.some.inj ((course?_step hreg hc s).symm.trans hc')
      rw [Course.run_key] at hsubject
      have hrank : rank subject (m.step s).keys n = rank subject m.keys n := by
        rw [keys_step, rank_append (Nat.le_of_lt (List.getElem?_eq_some_iff.mp hn).1)]
      have hsame := course?_run hreg' (h.course n c hc hsubject) (s.only? subject m.keys).toList
      rw [hrank, hsame, ← Step.actOn_only hn hsubject s]
      cases s.only? subject m.keys with
      | none => rfl
      | some s' =>
        cases hact : s'.actOn (rank subject m.keys n) c.sub.key <;> simp [hact]

theorem settle (h : Mirrors subject m m') {answers : StreamKey → Answer} {r r' : Subscriptions}
    (hr : Settles answers m r) (hr' : Settles answers m' r') : Mirrors subject r r' := by
  refine ⟨?_, fun n d hd hsubject => ?_⟩
  · rw [hr.keys, ← h.length, ← length_keys, ← length_keys, hr'.keys]
  · obtain ⟨c, hc, -⟩ := course_of_keys (hr.keys ▸ keys_of_course? hd)
    obtain ⟨k, hk, hidle⟩ := hr.course? hc
    obtain rfl := Option.some.inj (hk.symm.trans hd)
    rw [Course.run_key] at hsubject
    obtain ⟨k', hk', hidle'⟩ := hr'.course? (h.course n c hc hsubject)
    rw [hr.keys, hk', Course.rest_unique hidle hidle']

end Mirrors

/-- A step, or a settle in which the other side says these things. -/
inductive Move where
  | step (s : Step)
  | settle (answers : StreamKey → Answer)

/-- The moves may come to this, as the tasks take their turns in one order or another. -/
def Plays (m : Subscriptions) : List Move → Subscriptions → Prop
  | [], m' => m' = m
  | .step s :: rest, m' => (m.step s).Plays rest m'
  | .settle answers :: rest, m' => ∃ r, Settles answers m r ∧ r.Plays rest m'

theorem exists_plays (m : Subscriptions) (moves : List Move) : ∃ m', m.Plays moves m' := by
  induction moves generalizing m with
  | nil => exact ⟨m, rfl⟩
  | cons move rest ih =>
    cases move with
    | step s => exact ih (m.step s)
    | settle answers =>
      obtain ⟨r, hr⟩ := exists_settles answers m
      obtain ⟨m', hrest⟩ := ih r
      exact ⟨m', r, hr, hrest⟩

/-- The moves without what concerns only other subjects; where tasks went on, they do so still. -/
def only (subject : String) (keys : List StreamKey) : List Move → List Move
  | [] => []
  | .step s :: rest =>
    (s.only? subject keys).toList.map .step ++ only subject (keys ++ subscribed [s]) rest
  | .settle answers :: rest => .settle answers :: only subject keys rest

theorem plays_steps {steps : List Step} {rest : List Move} :
    m.Plays (steps.map .step ++ rest) m' ↔ (m.run steps).Plays rest m' := by
  induction steps generalizing m with
  | nil => rfl
  | cons s steps ih => exact ih

theorem Mirrors.plays (h : Mirrors subject m m') (hreg : Registered m) (hknown : Known m)
    (hreg' : Registered m') (hknown' : Known m') {moves : List Move} {r r' : Subscriptions}
    (hr : m.Plays moves r) (hr' : m'.Plays (only subject m.keys moves) r') :
    Mirrors subject r r' ∧ Registered r ∧ Registered r' := by
  induction moves generalizing m m' with
  | nil =>
    obtain rfl : r = m := hr
    obtain rfl : r' = m' := hr'
    exact ⟨h, hreg, hreg'⟩
  | cons move rest ih =>
    cases move with
    | step s =>
      have hrest' := plays_steps.mp hr'
      rw [← keys_step] at hrest'
      exact ih (h.step hreg hknown hreg' hknown' s) (hreg.step s) (hknown.step s)
        (run_induction (fun _ s h => h.step s) hreg' _)
        (run_induction (fun _ s h => h.step s) hknown' _) hr hrest'
    | settle answers =>
      obtain ⟨q, hq, hrest⟩ := hr
      obtain ⟨q', hq', hrest'⟩ := hr'
      rw [← hq.keys] at hrest'
      exact ih (h.settle hq hq') (hq.registered hreg) (hq.known hknown) (hq'.registered hreg')
        (hq'.known hknown') hrest hrest'

/-! ### What is answered -/

/-- Whether there was one is what a removal under one key answers. -/
theorem unsubscribe_answer (m : Subscriptions) (key : StreamKey) :
    (m.unsubscribe key).2 = m.isActive key := by
  have hcount : (m.unsubscribe key).2 = ((m.matching (· == key)).length != 0) := by
    rw [← remove_count]
    rfl
  rw [hcount, Bool.eq_iff_iff, isActive, List.lookup_isSome_iff, bne_iff_ne, ne_eq,
    List.length_eq_zero_iff]
  constructor
  · intro hne
    obtain ⟨id, hid⟩ := List.exists_mem_of_ne_nil _ hne
    obtain ⟨k, hk, heq⟩ := mem_matching.mp hid
    exact ⟨(k, id), hk, BEq.symm heq⟩
  · rintro ⟨⟨k, id⟩, hk, heq⟩
    exact List.ne_nil_of_mem (mem_matching.mpr ⟨k, hk, BEq.symm heq⟩)

namespace Mirrors

/-- In the second run the subject's subscriptions that are registered are those that are in the
first. -/
theorem perm_matching (h : Mirrors subject m m') (hreg : Registered m) (hreg' : Registered m')
    {p : StreamKey → Bool} (hp : ∀ key, p key = true → key.subject = subject) :
    (m'.matching p).Perm ((m.matching p).map (rank subject m.keys)) := by
  have hkey {n : Nat} {key : StreamKey} (hm : (key, n) ∈ m.handles) : m.keys[n]? = some key := by
    obtain ⟨c, hc, rfl, -⟩ := (mem_handles_iff hreg).mp hm
    exact keys_of_course? hc
  have hnodup : ((m.matching p).map (rank subject m.keys)).Nodup := by
    refine (hreg.nodup_matching p).map_on fun i hi n hn heq => ?_
    obtain ⟨ki, hki, hpi⟩ := mem_matching.mp hi
    obtain ⟨kn, hkn, hpn⟩ := mem_matching.mp hn
    exact (rank_inj (hkey hki) (hp ki hpi) (hkey hkn) (hp kn hpn)).mp heq
  refine (List.perm_ext_iff_of_nodup (hreg'.nodup_matching p) hnodup).mpr fun i => ?_
  rw [List.mem_map]
  constructor
  · intro hi
    obtain ⟨key, hm', hpkey⟩ := mem_matching.mp hi
    obtain ⟨c', hc', hckey, hl⟩ := (mem_handles_iff hreg').mp hm'
    have hlt : i < m.keys.countP (·.subject == subject) := by
      rw [← h.length]
      exact (List.getElem?_eq_some_iff.mp (all_of_course? hc')).1
    obtain ⟨n, k, hn, hk, rfl⟩ := exists_rank hlt
    obtain ⟨c, hc, rfl⟩ := course_of_keys hn
    obtain rfl := Option.some.inj ((h.course n c hc hk).symm.trans hc')
    exact ⟨n, mem_matching.mpr ⟨key, (mem_handles_iff hreg).mpr ⟨c, hc, hckey, hl⟩, hpkey⟩, rfl⟩
  · rintro ⟨n, hn, rfl⟩
    obtain ⟨key, hm, hpkey⟩ := mem_matching.mp hn
    obtain ⟨c, hc, rfl, hl⟩ := (mem_handles_iff hreg).mp hm
    have hc' := h.course n c hc (hp _ hpkey)
    exact mem_matching.mpr ⟨c.sub.key, (mem_handles_iff hreg').mpr ⟨c, hc', rfl, hl⟩, hpkey⟩

theorem remove_count (h : Mirrors subject m m') (hreg : Registered m) (hreg' : Registered m')
    {p : StreamKey → Bool} (hp : ∀ key, p key = true → key.subject = subject) :
    (m'.remove p).2 = (m.remove p).2 := by
  have hlength := (h.perm_matching hreg hreg' hp).length_eq
  rw [List.length_map] at hlength
  rw [Subscriptions.remove_count, Subscriptions.remove_count, hlength]

theorem unsubscribe (h : Mirrors subject m m') (hreg : Registered m) (hreg' : Registered m')
    {key : StreamKey} (hkey : key.subject = subject) :
    (m'.unsubscribe key).2 = (m.unsubscribe key).2 := by
  have hcount := h.remove_count hreg hreg' (p := (· == key)) fun k hk => by
    rw [beq_iff_eq.mp hk, hkey]
  exact congrArg (· != 0) hcount

end Mirrors

/-- Whatever is done to other subjects, and in whatever order the tasks take their turns: to each
subscription of a subject all comes as it would without the steps that concern only others, and so
are the answers about it. A run without them there always is. -/
theorem subjects_apart (subject : String) (moves : List Move) :
    let own := only subject [] moves
    (∃ m, Plays {} moves m) ∧ (∃ m', Plays {} own m') ∧
    ∀ m m', Plays {} moves m → Plays {} own m' →
      m'.all.length = m.keys.countP (·.subject == subject) ∧
      (∀ n key, m.keys[n]? = some key → key.subject = subject →
        let n' := rank subject m.keys n
        m'.all[n']? = m.all[n]? ∧ m'.deedsOf n' = m.deedsOf n) ∧
      (∀ key, key.subject = subject → m'.isActive key = m.isActive key ∧
        (m'.unsubscribe key).2 = (m.unsubscribe key).2) ∧
      (m'.unsubscribeAll subject).2 = (m.unsubscribeAll subject).2 := by
  intro own
  refine ⟨exists_plays {} moves, exists_plays {} own, fun m m' hm hm' => ?_⟩
  have hempty : Mirrors subject {} {} := ⟨rfl, fun n c hc => by simp [course?] at hc⟩
  obtain ⟨h, hreg, hreg'⟩ := hempty.plays (registered_run []) (Known.run []) (registered_run [])
    (Known.run []) hm hm'
  refine ⟨h.length, fun n key hn hkey => ?_, fun key hkey => ⟨?_, h.unsubscribe hreg hreg' hkey⟩,
    ?_⟩
  · obtain ⟨c, hc, rfl⟩ := course_of_keys hn
    have hc' := h.course n c hc hkey
    refine ⟨?_, ?_⟩
    · rw [all_of_course? hc', all_of_course? hc]
    · rw [deedsOf_of_course? hc', deedsOf_of_course? hc]
  · rw [← unsubscribe_answer, ← unsubscribe_answer]
    exact h.unsubscribe hreg hreg' hkey
  · exact h.remove_count hreg hreg' fun k hk => beq_iff_eq.mp hk

/-- One subject's stream is read to its end while another's is cut off, taken over and dropped. -/
def sideBySide : List Move :=
  [.step (.subscribe ⟨"q", .rawOutput⟩), .step (.subscribe ⟨"p", .rawOutput⟩),
    .settle fun _ => .granted, .step (.receive 1 (.event (.rawOutput [1]))),
    .step (.receive 0 .close), .step (.subscribe ⟨"q", .rawOutput⟩), .settle fun _ => .granted,
    .step (.unsubscribeAll "q"), .step (.receive 1 .close), .settle fun _ => .granted]

theorem sideBySide_apart :
    ∃ m m', Plays {} sideBySide m ∧ Plays {} (only "p" [] sideBySide) m' ∧
      m.all.length = 3 ∧ m'.all.length = 1 ∧
      m'.deedsOf 0 = [.ask, .event (.rawOutput [1]), .ended .completed] ∧
      m'.isActive ⟨"p", .rawOutput⟩ = false := by
  let m := run {} [.subscribe ⟨"q", .rawOutput⟩, .subscribe ⟨"p", .rawOutput⟩,
    .turn 1 .granted, .turn 0 .granted, .turn 0 .granted, .turn 1 .granted,
    .receive 1 (.event (.rawOutput [1])), .receive 0 .close, .subscribe ⟨"q", .rawOutput⟩,
    .turn 2 .granted, .turn 0 .granted, .turn 1 .granted, .turn 2 .granted,
    .unsubscribeAll "q", .receive 1 .close, .turn 2 .granted, .turn 1 .granted]
  have hm : Plays {} sideBySide m :=
    ⟨_, .turn 1 rfl (.turn 0 rfl (.turn 0 rfl (.turn 1 rfl (.rest (by decide))))),
      _, .turn 2 rfl (.turn 0 rfl (.turn 1 rfl (.turn 2 rfl (.rest (by decide))))),
      _, .turn 2 rfl (.turn 1 rfl (.rest (by decide))), rfl⟩
  obtain ⟨-, ⟨m', hm'⟩, happlies⟩ := subjects_apart "p" sideBySide
  obtain ⟨hlength, hown, hanswers, -⟩ := happlies m m' hm hm'
  have hkeys : m.keys = [⟨"q", .rawOutput⟩, ⟨"p", .rawOutput⟩, ⟨"q", .rawOutput⟩] := by decide
  have hdeeds : m.deedsOf 1 = [.ask, .event (.rawOutput [1]), .ended .completed] := by decide
  have hone : m'.deedsOf 0 = m.deedsOf 1 := by
    have h := (hown 1 ⟨"p", .rawOutput⟩ (by decide) rfl).2
    rw [hkeys] at h
    exact h
  refine ⟨m, m', hm, hm', by decide, ?_, hone.trans hdeeds, ?_⟩
  · rw [hlength, hkeys]
    rfl
  · rw [(hanswers ⟨"p", .rawOutput⟩ rfl).1]
    decide

end Subscriptions

end Vigil
