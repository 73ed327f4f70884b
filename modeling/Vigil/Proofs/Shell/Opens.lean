import Mathlib.Data.Finset.Prod
import Vigil.Proofs.Shell.Streams
import Vigil.Proofs.Streams.Requests

/-! How often a run asks for streams: each connection pays for one set of requests, and connections
lie an interval apart, whatever becomes of the streams. -/
namespace Vigil.Shell

/-- Each project has a stream of each kind, and has it once however often it is named. -/
theorem card_wanted_le (projects : List String) :
    (wanted projects).toFinset.card ≤ 2 * projects.toFinset.card := by
  let pairs := projects.toFinset ×ˢ Run.projectKinds.toFinset
  have hsubset : (wanted projects).toFinset ⊆ pairs.image fun p => StreamKey.mk p.1 p.2 := by
    intro key hkey
    obtain ⟨project, hproject, hkinds⟩ := List.mem_flatMap.mp (List.mem_toFinset.mp hkey)
    obtain ⟨kind, hkind, rfl⟩ := List.mem_map.mp hkinds
    refine Finset.mem_image.mpr ⟨(project, kind), ?_, rfl⟩
    exact Finset.mem_product.mpr ⟨List.mem_toFinset.mpr hproject, List.mem_toFinset.mpr hkind⟩
  have hkinds : Run.projectKinds.toFinset.card = 2 := by decide
  calc (wanted projects).toFinset.card
      ≤ (pairs.image fun p => StreamKey.mk p.1 p.2).card := Finset.card_le_card hsubset
    _ ≤ pairs.card := Finset.card_image_le
    _ = projects.toFinset.card * 2 := by rw [Finset.card_product, hkinds]
    _ = 2 * projects.toFinset.card := Nat.mul_comm _ _

namespace Traffic

variable {f : Traffic} {a : Act} {interval since : Nat}

/-- What was asked for and what may still be is paid for by the connections so far. -/
structure Paid (f : Traffic) : Prop where
  faithful : f.Faithful
  sum_le : f.subscriptions.asks + f.subscriptions.waiting ≤
    (wanted f.projects).toFinset.card * f.reconnect.announced.length

/-- Nothing but a connection makes a run ask for more. -/
theorem act_sum_le (ha : ∀ d, a ≠ .connect d) :
    (f.act a).subscriptions.asks + (f.act a).subscriptions.waiting ≤
      f.subscriptions.asks + f.subscriptions.waiting := by
  rcases f.act_streams ha with ⟨hsubs, -⟩ | ⟨s, hs, hsubs, -⟩
  · rw [hsubs]
  · rw [hsubs]
    exact Subscriptions.step_sum_le hs

theorem Paid.act (h : f.Paid) (ha : f.Allows a) : (f.act a).Paid := by
  refine ⟨h.faithful.act a, ?_⟩
  have hpaid := h.sum_le
  have hannounced := congrArg List.length (act_announced ha)
  rw [List.length_append] at hannounced
  rw [f.act_projects a, hannounced]
  by_cases hconnect : ∃ d, a = .connect d
  · obtain ⟨d, rfl⟩ := hconnect
    have hone : (Act.connect d).connection?.toList.length = 1 := rfl
    have hsubs : (f.act (.connect d)).subscriptions = f.subscriptions.renew (wanted f.projects) :=
      f.renew_subscriptions
    have hset := Subscriptions.renew_sum_le h.faithful.within
    rw [hsubs, hone, Nat.mul_succ]
    omega
  · have hplain : ∀ d, a ≠ .connect d := fun d hd => hconnect ⟨d, hd⟩
    have hless := act_sum_le (f := f) hplain
    rw [Act.connection?_eq_none hplain, Option.toList_none, List.length_nil, Nat.add_zero]
    exact Nat.le_trans hless hpaid

/-- A connection comes for each interval that has passed since there could be one, and one more. -/
theorem Linked.announced_le (h : f.Linked interval since) (hinterval : 0 < interval) :
    f.reconnect.announced.length ≤ 1 + (f.reconnect.now - since) / interval := by
  cases hserved : f.served with
  | false =>
    obtain ⟨-, -, heq⟩ := h.before hserved
    have hnone : f.reconnect.announced = [] := by
      rw [heq]
      rfl
    rw [hnone]
    exact Nat.zero_le _
  | true =>
    obtain ⟨t, moves, ht, heq⟩ := h.after hserved
    have hconnections := Link.Reconnect.announced_le_attempts interval (.pass t :: moves)
    have hattempts := Link.Reconnect.attempts_le hinterval t moves
    rw [← heq] at hconnections hattempts
    have hlater : (f.reconnect.now - t) / interval ≤ (f.reconnect.now - since) / interval := by
      apply Nat.div_le_div_right
      omega
    omega

/-- Before a daemon is there nobody has to keep a connection, and afterwards somebody always has. -/
theorem Linked.since_now (h : f.Linked interval since) (hloops : f.reconnect.loops = []) :
    f.Linked interval f.reconnect.now := by
  have hserved : f.served = false := by
    rw [← Bool.not_eq_true]
    intro hserved
    obtain ⟨l, hl, -⟩ := (h.steady hserved).loop
    rw [hloops] at hl
    cases hl
  obtain ⟨hexit, -, heq⟩ := h.before hserved
  exact ⟨h.clock, fun _ => ⟨hexit, Nat.le_refl _, heq⟩, fun hyes => nomatch hserved.symm.trans hyes⟩

end Traffic

namespace Run

open Traffic

variable {σ : Type}

theorem paid_run (v : Daemon.Supervisor σ) (projects : List String) (exitDelay : Nat)
    (supervision : Daemon.Supervision σ) (interval : Nat) (queue : Queue)
    (moves : List (Move σ)) :
    (run (fresh v projects exitDelay supervision interval queue) moves).traffic.Paid := by
  have hbegun : (fresh v projects exitDelay supervision interval queue).traffic.Paid :=
    ⟨⟨.empty _, rfl⟩, Nat.zero_le _⟩
  exact traffic_invariant (fun f a h ha => h.act ha) hbegun moves

theorem clocks_agree (v : Daemon.Supervisor σ) (projects : List String) (exitDelay : Nat)
    {supervision : Daemon.Supervision σ} (hnow : supervision.now = 0) (interval : Nat)
    (queue : Queue) (moves : List (Move σ)) :
    let r := run (fresh v projects exitDelay supervision interval queue) moves
    r.reconnect.now = r.now := by
  let begun := fresh v projects exitDelay supervision interval queue
  have hbegun : begun.traffic.reconnect.now = begun.traffic.now := hnow.symm
  refine traffic_invariant (P := fun f => f.reconnect.now = f.now) (fun f a h _ => ?_) hbegun moves
  rcases f.act_clock a with hset | ⟨hlink, hrun⟩
  · exact hset
  · rw [hlink, hrun, h]

/-- Whatever daemon, connection and streams do, in every order of the tasks: while `elapsed` passes
from an instant at which nobody keeps the connection yet, a run asks for one set of streams, two for
each project that there is, and for one more with every interval. Streams that are refused or lost
at once make no difference. -/
theorem opens_within (v : Daemon.Supervisor σ) (projects : List String) (exitDelay : Nat)
    (supervision : Daemon.Supervision σ) {interval : Nat} (hinterval : 0 < interval)
    (queue : Queue) (moves later : List (Move σ)) :
    let r := run (fresh v projects exitDelay supervision interval queue) moves
    let r' := r.run later
    (r.reconnect.loops = [] → ∀ elapsed, r'.reconnect.now ≤ r.reconnect.now + elapsed →
      r'.subscriptions.asks ≤ 2 * projects.toFinset.card * (1 + elapsed / interval)) ∧
    (supervision.now = 0 → r'.reconnect.now = r'.now) := by
  intro r r'
  have hmoves : r' = run (fresh v projects exitDelay supervision interval queue) (moves ++ later) :=
    List.foldl_append.symm
  refine ⟨fun hloops elapsed hle => ?_, fun hnow => ?_⟩
  · have hbefore : r.traffic.Linked interval r.reconnect.now :=
      (orderly_run v projects exitDelay supervision interval queue moves).linked.since_now hloops
    have hlinked : r'.traffic.Linked interval r.reconnect.now :=
      traffic_invariant (fun f a h ha => h.act ha) hbefore later
    have hprojects : r'.projects = projects := by
      rw [hmoves]
      exact projects_run _ _
    have hpaid : r'.subscriptions.asks + r'.subscriptions.waiting ≤
        (wanted projects).toFinset.card * r'.reconnect.announced.length := by
      have hsum := (paid_run v projects exitDelay supervision interval queue (moves ++ later)).sum_le
      rw [← hmoves] at hsum
      rw [← hprojects]
      exact hsum
    have hannounced : r'.reconnect.announced.length ≤ 1 + elapsed / interval := by
      have hcount := hlinked.announced_le hinterval
      have hpassed : (r'.reconnect.now - r.reconnect.now) / interval ≤ elapsed / interval := by
        apply Nat.div_le_div_right
        omega
      exact Nat.le_trans hcount (Nat.add_le_add_left hpassed 1)
    calc r'.subscriptions.asks
        ≤ (wanted projects).toFinset.card * r'.reconnect.announced.length := by omega
      _ ≤ 2 * projects.toFinset.card * (1 + elapsed / interval) :=
        Nat.mul_le_mul (card_wanted_le projects) hannounced
  · rw [hmoves]
    exact clocks_agree v projects exitDelay hnow interval queue (moves ++ later)

/-- Both streams of the first connection are refused at once. The loss of one is looked at, and after
the interval a second connection brings two more. -/
def refusing : List (Move Rehearsal.World) :=
  let daemon : Record := { port := 1, pid := 100 }
  let refused : Subscriptions.Answer := .refused ⟨.unavailable, "gone"⟩
  [.main .notice, .loop, .acquired (some daemon), .pump 0 .later, .pump 1 .later, .pump 0 refused,
    .pump 1 refused, .main .loss, .main .loss, .loop, .pass 3, .loop, .loop,
    .acquired (some daemon), .pump 2 .later, .pump 3 .later]

theorem refusing_opens :
    let r := run attached []
    let r' := r.run refusing
    (0 < 3 ∧ r.reconnect.loops = [] ∧ r'.reconnect.now = 3) ∧ r'.subscriptions.asks = 4 ∧
      r'.subscriptions.asks ≤ 2 * ["p"].toFinset.card * (1 + 3 / 3) ∧ r'.reconnect.now = r'.now := by
  have hinterval : 0 < 3 := by decide
  have hnow : ((run attached []).run refusing).reconnect.now = 3 := by decide
  have hasks : ((run attached []).run refusing).subscriptions.asks = 4 := by decide
  obtain ⟨hopens, hclocks⟩ := opens_within ⟨Rehearsal.World.surroundings, {}⟩ ["p"] 5
    { world := { record := some { port := 1, pid := 100 }, alive := [100] } } hinterval
    (.ofLimit 8) [] refusing
  refine ⟨⟨hinterval, rfl, hnow⟩, hasks, ?_, hclocks rfl⟩
  -- The first connection is kept from the instant `0`, so the second falls on the bound.
  apply hopens rfl 3
  decide

end Run

end Vigil.Shell
