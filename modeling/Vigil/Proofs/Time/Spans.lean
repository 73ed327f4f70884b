import Mathlib
import Vigil.Time.Duration

/-! Products and bounds of spans, as numbers of nanoseconds and by their two parts. -/
namespace Vigil.Duration

theorem le_iff {d d' : Duration} : d ≤ d' ↔ d.nanos ≤ d'.nanos := Iff.rfl

theorem nanos_le_largest (d : Duration) : d.nanos ≤ largest := Nat.le_sub_one_of_lt d.bounded

theorem nanos_times (d : Duration) (k : Nat) : (d.times k).nanos = min (d.nanos * k) largest := rfl

theorem nanos_atMost (d cap : Duration) : (d.atMost cap).nanos = min d.nanos cap.nanos := by
  unfold atMost
  split_ifs with h
  · exact (Nat.min_eq_left h).symm
  · exact (Nat.min_eq_right (Nat.le_of_not_le h)).symm

/-- A product that is cut to the largest span is above every cap, so under a cap the cut does not
show. -/
theorem nanos_times_atMost (d cap : Duration) (k : Nat) :
    ((d.times k).atMost cap).nanos = min (d.nanos * k) cap.nanos := by
  have hcap := cap.nanos_le_largest
  rw [nanos_atMost, nanos_times, Nat.min_assoc, Nat.min_eq_right hcap]

/-- Every count of milliseconds in 64 bits is a span. -/
theorem nanos_ofMillis {n : Nat} (h : n ≤ u64Max) : (ofMillis n).nanos = n * 1000000 := by
  have hsmall : n * 1000000 ≤ largest := by
    unfold u64Max at h
    unfold largest
    omega
  exact Nat.min_eq_left hsmall

theorem secs_subsec (d : Duration) : d.nanos = d.secs * 1000000000 + d.subsec :=
  (Nat.div_add_mod' d.nanos 1000000000).symm

/-- A product by parts: the nanoseconds' product is carried over in whole seconds, and only the
seconds can run out. -/
theorem times_by_parts (d : Duration) (k : Nat) :
    let carried := d.subsec * k / 1000000000
    if d.secs * k + carried ≤ u64Max then
      (d.times k).secs = d.secs * k + carried ∧ (d.times k).subsec = d.subsec * k % 1000000000
    else (d.times k).nanos = largest := by
  intro carried
  have hproduct : d.nanos * k = (d.secs * k) * 1000000000 + d.subsec * k := by
    rw [d.secs_subsec, Nat.add_mul, Nat.mul_right_comm]
  have hcarried : carried = d.subsec * k / 1000000000 := rfl
  have hnanos := nanos_times d k
  rw [hproduct] at hnanos
  clear_value carried
  generalize d.secs * k = seconds at *
  generalize d.subsec * k = rest at *
  unfold largest at hnanos
  unfold u64Max secs subsec largest
  split_ifs with h
  · have hfits : min (seconds * 1000000000 + rest) (18446744073709551616 * 1000000000 - 1) =
        seconds * 1000000000 + rest := Nat.min_eq_left (by omega)
    rw [hnanos, hfits]
    omega
  · rw [hnanos]
    exact Nat.min_eq_right (by omega)

end Vigil.Duration
