import Vigil.Proofs.Settings.Slots
import Vigil.Proofs.Time.Spans
import Vigil.Rehearsal.World

/-! The waits of the policies: what they are without any bound on the arithmetic, and what they come
to under policies that are read from settings. -/
namespace Vigil.Daemon

namespace RestartPolicy

variable (p : RestartPolicy) {n n' : Nat} {d d' : Duration}

theorem delayAfter_eq_none_iff :
    p.delayAfter n = none ↔ ∃ limit, p.maxAttempts = some limit ∧ limit ≤ n := by
  cases hlimit : p.maxAttempts with
  | none => simp [delayAfter, hlimit]
  | some limit => simp [delayAfter, hlimit]

variable {p}

theorem nanos_delayAfter (h : p.delayAfter n = some d) :
    d.nanos = min (p.cooldown.nanos * max n 1) p.maxCooldown.nanos := by
  unfold delayAfter at h
  split_ifs at h
  cases h
  exact Duration.nanos_times_atMost ..

/-- As long as there are attempts, more failures wait no shorter. -/
theorem delayAfter_mono (hle : n ≤ n') (h : p.delayAfter n' = some d') :
    ∃ d, p.delayAfter n = some d ∧ d ≤ d' := by
  cases hd : p.delayAfter n with
  | none =>
    obtain ⟨limit, hlimit, hspent⟩ := p.delayAfter_eq_none_iff.mp hd
    have hnone := p.delayAfter_eq_none_iff.mpr ⟨limit, hlimit, Nat.le_trans hspent hle⟩
    rw [hnone] at h
    cases h
  | some d =>
    refine ⟨d, rfl, Duration.le_iff.mpr ?_⟩
    rw [nanos_delayAfter hd, nanos_delayAfter h]
    have hmax : max n 1 ≤ max n' 1 := by omega
    exact min_le_min_right _ (Nat.mul_le_mul_left _ hmax)

/-- Without a limit there is a wait after every failure, and under a cap that is no shorter than the
cool-down the wait is none either. -/
theorem delayAfter_within (hlimit : p.maxAttempts = none) (hcap : p.cooldown ≤ p.maxCooldown)
    (n : Nat) : ∃ d, p.delayAfter n = some d ∧ p.cooldown ≤ d ∧ d ≤ p.maxCooldown := by
  cases hd : p.delayAfter n with
  | none =>
    obtain ⟨limit, hsome, -⟩ := p.delayAfter_eq_none_iff.mp hd
    rw [hlimit] at hsome
    cases hsome
  | some d =>
    have hgrows : p.cooldown.nanos ≤ p.cooldown.nanos * max n 1 :=
      Nat.le_mul_of_pos_right _ (by omega)
    refine ⟨d, rfl, ?_, ?_⟩
    · rw [Duration.le_iff, nanos_delayAfter hd]
      exact Nat.le_min.mpr ⟨hgrows, hcap⟩
    · rw [Duration.le_iff, nanos_delayAfter hd]
      exact Nat.min_le_right _ _

end RestartPolicy

theorem nanos_budget (p : StartPolicy) :
    p.budget.nanos = min (p.pollInterval.nanos * p.maxAttempts) Duration.largest := rfl

section Settings

variable (s : Settings)

theorem nanos_cooldown :
    s.policies.restart.cooldown.nanos = s.restartCooldownMs.toNat * 1000000 :=
  Duration.nanos_ofMillis (Settings.toNat_le_u64 _)

theorem nanos_maxCooldown : s.policies.restart.maxCooldown.nanos =
    max s.restartCooldownMs.toNat s.restartCooldownMaxMs.toNat * 1000000 := by
  rw [Nat.max_comm]
  exact Duration.nanos_ofMillis
    (max_le (Settings.toNat_le_u64 _) (Settings.toNat_le_u64 _))

/-- Behind a launch a supervisor with these settings waits for a look at least. -/
theorem awaits_first_look {σ : Type} {v : Supervisor σ} (hpolicies : v.policies = s.policies)
    (t : Supervision σ) :
    v.await t 1 = .polling 1 (t.now + s.policies.start.pollInterval.nanos) := by
  have hlooks : ¬v.policies.start.maxAttempts < 1 := by
    rw [hpolicies]
    exact Nat.not_lt.mpr (Nat.le_max_right _ _)
  rw [Supervisor.await, if_neg hlooks, hpolicies]

end Settings

/-- The wait behind a number of failures is spent exactly with the limit; otherwise it is the
cool-down as often as there are failures, and once for none, up to the cap, with no bound on the
product. It grows with the failures and stays within the cap. The time for all looks is exact up to
the largest span. A product is what the seconds and the nanoseconds come to apart, with a carry.
With policies from settings there is always a wait, no shorter than the cool-down and no longer than
the longer of cool-down and cap, and a daemon that was launched is looked for once at least. -/
theorem waits_exact :
    (∀ (p : RestartPolicy) (n : Nat),
      (p.delayAfter n = none ↔ ∃ limit, p.maxAttempts = some limit ∧ limit ≤ n) ∧
      (∀ d, p.delayAfter n = some d →
        d.nanos = min (p.cooldown.nanos * max n 1) p.maxCooldown.nanos ∧ d ≤ p.maxCooldown) ∧
      ∀ n' d', n ≤ n' → p.delayAfter n' = some d' → ∃ d, p.delayAfter n = some d ∧ d ≤ d') ∧
    (∀ p : StartPolicy,
      p.budget.nanos = min (p.pollInterval.nanos * p.maxAttempts) Duration.largest) ∧
    (∀ (d : Duration) (k : Nat),
      let carried := d.subsec * k / 1000000000
      if d.secs * k + carried ≤ u64Max then
        (d.times k).secs = d.secs * k + carried ∧ (d.times k).subsec = d.subsec * k % 1000000000
      else (d.times k).nanos = Duration.largest) ∧
    ∀ s : Settings,
      (∀ n, ∃ d, s.policies.restart.delayAfter n = some d ∧
        s.restartCooldownMs.toNat * 1000000 ≤ d.nanos ∧
        d.nanos ≤ max s.restartCooldownMs.toNat s.restartCooldownMaxMs.toNat * 1000000) ∧
      1 ≤ s.policies.start.maxAttempts ∧
      ∀ (σ : Type) (v : Supervisor σ) (t : Supervision σ), v.policies = s.policies →
        v.await t 1 = .polling 1 (t.now + s.policies.start.pollInterval.nanos) := by
  refine ⟨fun p n => ⟨p.delayAfter_eq_none_iff, fun d hd => ?_, fun n' d' hle hd' =>
    RestartPolicy.delayAfter_mono hle hd'⟩, nanos_budget, Duration.times_by_parts, fun s =>
    ⟨fun n => ?_, Nat.le_max_right _ _, fun σ v t hpolicies => awaits_first_look s hpolicies t⟩⟩
  · have hnanos := RestartPolicy.nanos_delayAfter hd
    refine ⟨hnanos, Duration.le_iff.mpr ?_⟩
    rw [hnanos]
    exact Nat.min_le_right _ _
  · have hcap : s.policies.restart.cooldown ≤ s.policies.restart.maxCooldown := by
      rw [Duration.le_iff, nanos_cooldown, nanos_maxCooldown]
      exact Nat.mul_le_mul_right _ (Nat.le_max_left _ _)
    obtain ⟨d, hd, hlow, hhigh⟩ := RestartPolicy.delayAfter_within rfl hcap n
    rw [Duration.le_iff, nanos_cooldown] at hlow
    rw [Duration.le_iff, nanos_maxCooldown] at hhigh
    exact ⟨d, hd, hlow, hhigh⟩

/-- Three failures whose product is past the largest span, and a cap just below it; settings whose
cap is below their cool-down and that leave no looks. -/
theorem long_waits :
    let p : RestartPolicy :=
      ⟨.ofSecs 10_000_000_000_000_000_000, .ofSecs 18_446_744_073_709_551_615, some 4⟩
    let s : Settings :=
      { restartCooldownMs := 8000, restartCooldownMaxMs := 1000, startPollAttempts := 0 }
    let v : Supervisor Rehearsal.World := ⟨Rehearsal.World.surroundings, s.policies⟩
    p.delayAfter 3 = some p.maxCooldown ∧
      p.maxCooldown.nanos = min (10_000_000_000_000_000_000_000_000_000 * 3) p.maxCooldown.nanos ∧
      p.delayAfter 4 = none ∧
      (∃ d, p.delayAfter 1 = some d ∧ d ≤ p.maxCooldown) ∧
      (∃ d, s.policies.restart.delayAfter 7 = some d ∧ d.nanos = 8_000_000_000) ∧
      v.await { world := {}, now := 5 } 1 = .polling 1 100_000_005 := by
  intro p s v
  obtain ⟨hrestart, -, -, hsettings⟩ := waits_exact
  obtain ⟨-, hdelay, -⟩ := hrestart p 3
  obtain ⟨hspent, -, -⟩ := hrestart p 4
  obtain ⟨-, -, hgrows⟩ := hrestart p 1
  obtain ⟨hwithin, -, hlook⟩ := hsettings s
  have hthree : p.delayAfter 3 = some p.maxCooldown := by decide
  obtain ⟨d, hd, hlow, hhigh⟩ := hwithin 7
  have hcooldown : s.restartCooldownMs.toNat = 8000 := rfl
  have hcap : s.restartCooldownMaxMs.toNat = 1000 := rfl
  rw [hcooldown] at hlow
  rw [hcooldown, hcap] at hhigh
  have hawait := hlook Rehearsal.World v { world := {}, now := 5 } rfl
  have hinterval : s.policies.start.pollInterval.nanos = 100_000_000 := by decide
  rw [hinterval] at hawait
  exact ⟨hthree, (hdelay _ hthree).1, hspent.mpr ⟨4, rfl, le_rfl⟩, hgrows 3 _ (by decide) hthree,
    ⟨d, hd, by omega⟩, hawait⟩

end Vigil.Daemon
