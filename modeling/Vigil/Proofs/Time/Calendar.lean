import Mathlib
import Vigil.Time.Instant

/-! Every day has its date: one that the calendar knows, and that leads back to the day. -/
namespace Vigil.Date

/-- The first day of a year, counted from March, within a cycle of 400. -/
def yearStart (y : Int) : Int := 365 * y + y / 4 - y / 100

/-- The year that a day of a cycle falls in. -/
def yearOf (e : Int) : Int := (e - e / 1460 + e / 36524 - e / 146096) / 365

/-- Centuries and the blocks of four years in them are found first. Only the last day of a cycle
falls behind the fourth century. -/
theorem yearOf_spec {e : Int} (hlow : 0 ≤ e) (hhigh : e < 146097) :
    0 ≤ yearOf e ∧ yearOf e ≤ 399 ∧ yearStart (yearOf e) ≤ e ∧
      e < yearStart (yearOf e + 1) + (yearOf e + 1) / 400 := by
  obtain rfl | hlt : e = 146096 ∨ e < 146096 := by omega
  · decide
  obtain ⟨g, hg⟩ : ∃ g, g = e / 36524 := ⟨_, rfl⟩
  obtain ⟨k, hk⟩ : ∃ k, k = (e + g) / 1461 := ⟨_, rfl⟩
  have hg3 : 0 ≤ g ∧ g ≤ 3 := by omega
  have hcentury : 25 * g ≤ k ∧ k ≤ 25 * g + 24 := by omega
  obtain ⟨d, hd⟩ : ∃ d, d = e + g - 1461 * k := ⟨_, rfl⟩
  have hd' : 0 ≤ d ∧ d ≤ 1460 := by omega
  have hlast : e / 146096 = 0 := by omega
  have hyear : ∃ r, 0 ≤ r ∧ r ≤ 3 ∧ yearOf e = 4 * k + r ∧ 365 * r ≤ d ∧
      (r = 3 ∨ d < 365 * (r + 1)) := by
    have hblock : e / 1460 = k ∧ d < 1460 ∨ e / 1460 = k + 1 ∧ 1361 ≤ d := by omega
    unfold yearOf
    rw [hlast, ← hg]
    obtain ⟨hf, hd⟩ | ⟨hf, hd⟩ := hblock
    · exact ⟨d / 365, by omega⟩
    · exact ⟨3, by omega⟩
  obtain ⟨r, hr0, hr3, hyear, hfrom, hto⟩ := hyear
  have hquarter : yearOf e / 4 = k := by omega
  have hhundred : yearOf e / 100 = g := by omega
  refine ⟨by omega, by omega, ?_, ?_⟩
  · rw [yearStart, hquarter, hhundred]
    omega
  · unfold yearStart
    obtain hr | rfl : r < 3 ∨ r = 3 := by omega
    · have hquarter' : (yearOf e + 1) / 4 = k := by omega
      have hhundred' : (yearOf e + 1) / 100 = g := by omega
      omega
    · have hquarter' : (yearOf e + 1) / 4 = k + 1 := by omega
      obtain hmid | hend : k < 25 * g + 24 ∨ k = 25 * g + 24 := by omega
      · have hhundred' : (yearOf e + 1) / 100 = g := by omega
        omega
      · have hhundred' : (yearOf e + 1) / 100 = g + 1 := by omega
        omega

theorem isLeapYear_iff {y : Int} :
    isLeapYear y = true ↔ y % 4 = 0 ∧ (y % 100 ≠ 0 ∨ y % 400 = 0) := by
  simp [isLeapYear]

/-- A year from March on is longer by the leap day at its end. -/
theorem yearStart_succ {y : Int} (h : 0 ≤ y ∧ y ≤ 399) : yearStart (y + 1) + (y + 1) / 400 =
    yearStart y + 365 + (if isLeapYear (y + 1) then 1 else 0) := by
  obtain rfl | hlt : y = 399 ∨ y < 399 := by omega
  · decide
  have hcycle : (y + 1) / 400 = 0 ∧ (y + 1) % 400 ≠ 0 := by omega
  simp only [isLeapYear_iff, hcycle, or_false, yearStart]
  obtain hquarter | hquarter : (y + 1) % 4 = 0 ∨ (y + 1) % 4 ≠ 0 := by omega
  · have hfour : (y + 1) / 4 = y / 4 + 1 := by omega
    obtain hhundred | hhundred : (y + 1) % 100 = 0 ∨ (y + 1) % 100 ≠ 0 := by omega
    · have : (y + 1) / 100 = y / 100 + 1 := by omega
      rw [if_neg (by simp [hhundred])]
      omega
    · have : (y + 1) / 100 = y / 100 := by omega
      rw [if_pos ⟨hquarter, hhundred⟩]
      omega
  · have hfour : (y + 1) / 4 = y / 4 := by omega
    have : (y + 1) / 100 = y / 100 := by omega
    rw [if_neg (by simp [hquarter])]
    omega

theorem isLeapYear_add_cycle (y cycle : Int) : isLeapYear (y + cycle * 400) = isLeapYear y := by
  rw [Bool.eq_iff_iff, isLeapYear_iff, isLeapYear_iff]
  omega

/-- A day by its cycle of 400 years, the year in it and the day in the year, both from March on,
and the month that day falls in. -/
structure Falls (days cycle y n m : Int) : Prop where
  sum : days + 719468 = cycle * 146097 + yearStart y + n
  year : 0 ≤ y ∧ y ≤ 399
  inYear : n < 365 + (if isLeapYear (y + 1) then 1 else 0)
  month : 0 ≤ m ∧ m ≤ 11
  inMonth : (153 * m + 2) / 5 ≤ n ∧ n < (153 * (m + 1) + 2) / 5

theorem ofDays_eq (days : Int) : ∃ cycle y n m : Int, Falls days cycle y n m ∧
    ofDays days = ⟨y + cycle * 400 + (if m < 10 then 0 else 1),
      (if m < 10 then m + 3 else m - 9).toNat, (n - (153 * m + 2) / 5 + 1).toNat⟩ := by
  obtain ⟨e, he⟩ : ∃ e, e = (days + 719468) % 146097 := ⟨_, rfl⟩
  obtain ⟨hpos, hle, hfrom, hto⟩ := yearOf_spec (e := e) (by omega) (by omega)
  obtain ⟨n, hn⟩ : ∃ n, n = e - yearStart (yearOf e) := ⟨_, rfl⟩
  obtain ⟨m, hm⟩ : ∃ m, m = (5 * n + 2) / 153 := ⟨_, rfl⟩
  rw [yearStart_succ ⟨hpos, hle⟩] at hto
  have hlength : n < 365 + (if isLeapYear (yearOf e + 1) then 1 else 0) := by omega
  have hn365 : n ≤ 365 := by
    split_ifs at hlength <;> omega
  refine ⟨(days + 719468) / 146097, yearOf e, n, m,
    ⟨by omega, ⟨hpos, hle⟩, hlength, by omega, by omega⟩, ?_⟩
  have hdef : ofDays days = ⟨yearOf e + (days + 719468) / 146097 * 400 +
      (if (if m < 10 then m + 3 else m - 9) ≤ 2 then 1 else 0),
      (if m < 10 then m + 3 else m - 9).toNat, (n - (153 * m + 2) / 5 + 1).toNat⟩ := by
    rw [hm, hn, he]
    rfl
  rw [hdef]
  congr 2
  split_ifs <;> omega

theorem toDays_ofDays (days : Int) : (ofDays days).toDays = days := by
  obtain ⟨cycle, y, n, m, ⟨hsum, hyear, -, hmonth, hday⟩, heq⟩ := ofDays_eq days
  rw [heq]
  unfold yearStart at hsum
  simp only [toDays]
  split_ifs <;> omega

theorem monthLength_le (y : Int) (m : Nat) : monthLength y m ≤ 31 := by
  unfold monthLength
  split_ifs <;> decide

theorem valid_ofDays (days : Int) : (ofDays days).Valid := by
  obtain ⟨cycle, y, n, m, ⟨-, -, hlast, ⟨hm0, hm11⟩, hday⟩, heq⟩ := ofDays_eq days
  rw [heq]
  obtain ⟨d, hd⟩ : ∃ d : Nat, d = (n - (153 * m + 2) / 5 + 1).toNat := ⟨_, rfl⟩
  rw [← hd]
  obtain rfl | hm : m = 11 ∨ m ≤ 10 := by omega
  · -- February ends with the year, so its length is the year's
    have hleap : isLeapYear (y + cycle * 400 + 1) = isLeapYear (y + 1) := by
      rw [← isLeapYear_add_cycle (y + 1) cycle]
      congr 1
      omega
    have hlength : monthLength (y + cycle * 400 + 1) 2 = if isLeapYear (y + 1) then 29 else 28 := by
      rw [← hleap]
      rfl
    change 1 ≤ 2 ∧ 2 ≤ 12 ∧ 1 ≤ d ∧ d ≤ monthLength (y + cycle * 400 + 1) 2
    rw [hlength]
    refine ⟨by decide, by decide, by omega, ?_⟩
    split_ifs at hlast ⊢ <;> omega
  · interval_cases m <;> simp [Valid, monthLength] <;> omega

end Vigil.Date
