import Mathlib
import Vigil.Proofs.Text.Digits
import Vigil.Proofs.Time.Calendar
import Vigil.Time.Rfc3339

/-! The text of an instant is read as that instant as long as its year has four digits, and is no
time otherwise. -/
namespace Vigil

theorem Instant.ofParts?_self (t : Instant) : Instant.ofParts? t.secs t.nanos = some t :=
  dif_pos ⟨t.nanos_lt, t.leap⟩

namespace Rfc3339

/-! ### Numbers of a fixed width -/

theorem takeNumber_append (ds s : List Char) (acc : Nat) :
    takeNumber ds.length acc (ds ++ s) = (Text.digitsFrom? 10 acc ds).map (·, s) := by
  induction ds generalizing acc with
  | nil => rfl
  | cons c ds ih =>
    simp only [List.length_cons, List.cons_append, takeNumber, takeDigit, Text.digitsFrom?]
    cases digit? 10 c with
    | none => rfl
    | some d => exact ih _

theorem takeNumber_paddedDecimal {width n : Nat} (hwidth : 0 < width) (h : n < 10 ^ width)
    (s : List Char) : takeNumber width 0 (Text.paddedDecimal width n ++ s) = some (n, s) := by
  have hread := takeNumber_append (Text.paddedDecimal width n) s 0
  rwa [Text.length_paddedDecimal hwidth h, Text.digitsFrom?_paddedDecimal] at hread

theorem takeNumber_twoDigits {n : Nat} (h : n < 100) (s : List Char) :
    takeNumber 2 0 (twoDigits n ++ s) = some (n, s) := by
  have hread := takeNumber_append (twoDigits n) s 0
  have htens : digit? 10 (digit (n / 10)) = some (n / 10) := by
    rw [digit, Nat.mod_eq_of_lt (by omega)]
    exact digit?_digitChar (by decide) (by omega)
  have hones : digit? 10 (digit n) = some (n % 10) := digit?_digitChar (by decide) (by omega)
  have hsum : n / 10 * 10 + n % 10 = n := by omega
  simpa [twoDigits, Text.digitsFrom?, htens, hones, hsum] using hread

/-- A sign is no digit. -/
theorem takeNumber_sign {c : Char} (h : c = '-' ∨ c = '+') (count : Nat) (s : List Char) :
    takeNumber (count + 1) 0 (c :: s) = none := by
  obtain rfl | rfl := h <;> rfl

/-! ### Fractions -/

theorem takeFraction_places {width n : Nat} (hwidth : 0 < width) (hwidth' : width ≤ 9)
    (h : n < 10 ^ width) {c : Char} (hc : c.isDigit = false) (s : List Char) :
    takeFraction ('.' :: (Text.paddedDecimal width n ++ c :: s)) =
      some (n * 10 ^ (9 - width), c :: s) := by
  have hlength := Text.length_paddedDecimal hwidth h
  have hdigits : (Text.paddedDecimal width n ++ c :: s).takeWhile
      (fun c => (digit? 10 c).isSome) = Text.paddedDecimal width n := by
    simp only [digit?_ten_isSome]
    rw [List.takeWhile_append_of_pos fun c hc => Text.isDigit_of_mem_paddedDecimal hc]
    simp [hc]
  have hne : Text.paddedDecimal width n ≠ [] := by
    rw [← List.length_pos_iff, hlength]
    exact hwidth
  have hread : Text.digits? 10 (Text.paddedDecimal width n) = some n := by
    rw [Text.digits?, if_neg (by simpa using hne), Text.digitsFrom?_paddedDecimal]
  simp only [takeFraction, hdigits]
  rw [List.take_of_length_le (by omega), hread, List.drop_left, if_neg (by simpa using hne)]
  simp [hlength]

theorem takeFraction_fractionText {n : Nat} (h : n < 1000000000) {c : Char}
    (hc : c.isDigit = false ∧ c ≠ '.') (s : List Char) :
    takeFraction (fractionText n ++ c :: s) = some (n, c :: s) := by
  simp only [fractionText, beq_iff_eq]
  split_ifs with h0 h3 h6
  · simp [takeFraction, hc.2, h0]
  -- fractions of three, six and nine places
  all_goals
    rw [List.cons_append, takeFraction_places (by decide) (by decide) (by omega) hc.1]
    congr 2
    omega

/-! ### Whole texts -/

/-- Years that have four digits and no sign. -/
def Written (t : Instant) : Prop := 0 ≤ t.date.year ∧ t.date.year ≤ 9999

instance (t : Instant) : Decidable (Written t) := by unfold Written; infer_instance

theorem secs_eq (t : Instant) : t.date.toDays * 86400 + t.secondOfDay = t.secs := by
  rw [Instant.date, Date.toDays_ofDays, Instant.secondOfDay]
  omega

/-- Fields that fit are read one after the other. -/
theorem read?_fields {year month day hour minute second nanos : Nat} (hyear : year < 10000)
    (hmonth : month < 100) (hday : day < 100) (hhour : hour < 100) (hminute : minute < 100)
    (hsecond : second < 100) (hnanos : nanos < 1000000000) :
    read? (Text.paddedDecimal 4 year ++ '-' :: twoDigits month ++ '-' :: twoDigits day ++
      'T' :: twoDigits hour ++ ':' :: twoDigits minute ++ ':' :: twoDigits second ++
      fractionText nanos ++ ['Z']) =
    if (⟨year, month, day⟩ : Date).Valid ∧ hour ≤ 23 ∧ minute ≤ 59 ∧ second ≤ 60 then
      Instant.ofParts? ((⟨year, month, day⟩ : Date).toDays * 86400 + hour * 3600 + minute * 60 +
        (min second 59 : Nat)) (nanos + if second == 60 then 1000000000 else 0)
    else none := by
  have hdash (s : List Char) : takeChar (fun c => c == '-') ('-' :: s) = some s := rfl
  have hcolon (s : List Char) : takeChar (fun c => c == ':') (':' :: s) = some s := rfl
  have hmark (s : List Char) :
      takeChar (fun c => c == 'T' || c == 't' || c == ' ') ('T' :: s) = some s := rfl
  have hzone : takeZone ['Z'] = some (0, []) := rfl
  have hread {α β : Type} (a : α) (f : α → Option β) : (some a >>= f) = f a := rfl
  simp only [List.append_assoc, List.cons_append]
  rw [read?]
  rw [takeNumber_paddedDecimal (by decide) hyear, hread]
  dsimp only
  rw [hdash, hread, takeNumber_twoDigits hmonth, hread]
  dsimp only
  rw [hdash, hread, takeNumber_twoDigits hday, hread]
  dsimp only
  rw [hmark, hread, takeNumber_twoDigits hhour, hread]
  dsimp only
  rw [hcolon, hread, takeNumber_twoDigits hminute, hread]
  dsimp only
  rw [hcolon, hread, takeNumber_twoDigits hsecond, hread]
  dsimp only
  rw [takeFraction_fractionText hnanos (by decide), hread]
  dsimp only
  rw [hzone, hread]
  simp only [List.isEmpty_nil, true_and, zero_mul, sub_zero]

theorem read?_writeZulu {t : Instant} (h : Written t) : read? (writeZulu t) = some t := by
  obtain ⟨hyear, hyear'⟩ := h
  have hvalid : t.date.Valid := Date.valid_ofDays _
  have hmonth : t.date.month ≤ 12 := hvalid.2.1
  have hday : t.date.day ≤ 31 := hvalid.2.2.2.trans (Date.monthLength_le _ _)
  have hsecond : t.secondOfDay < 86400 := by
    unfold Instant.secondOfDay
    omega
  have hnanos := t.nanos_lt
  have hleap := t.leap
  have hsecs := secs_eq t
  have htext : yearText t.date.year = Text.paddedDecimal 4 t.date.year.toNat :=
    if_pos (by simp [hyear, hyear'])
  have hdate : (⟨(t.date.year.toNat : Int), t.date.month, t.date.day⟩ : Date) = t.date := by
    rw [Int.toNat_of_nonneg hyear]
  -- second 60 is written for a leap second alone, and read as the end of second 59
  have hwhole : t.date.toDays * 86400 + ((t.secondOfDay / 3600 : Nat) : Int) * 3600 +
      ((t.secondOfDay / 60 % 60 : Nat) : Int) * 60 +
      ((min (t.secondOfDay % 60 + t.nanos / 1000000000) 59 : Nat) : Int) = t.secs := by
    omega
  have hparts : t.nanos % 1000000000 +
      (if t.secondOfDay % 60 + t.nanos / 1000000000 == 60 then 1000000000 else 0) = t.nanos := by
    split_ifs with h60
    · rw [beq_iff_eq] at h60
      omega
    · rw [beq_iff_eq] at h60
      omega
  rw [writeZulu, write, htext, read?_fields (by omega) (by omega) (by omega) (by omega) (by omega)
    (by omega) (by omega), hdate, hwhole, hparts, if_pos ⟨hvalid, by omega, by omega, by omega⟩]
  exact Instant.ofParts?_self t

/-- Any other year has a sign, which no time begins with. -/
theorem read?_writeZulu_of_not_written {t : Instant} (h : ¬Written t) :
    read? (writeZulu t) = none := by
  have hsign : yearText t.date.year = (if t.date.year < 0 then '-' else '+') ::
      Text.paddedDecimal 4 t.date.year.natAbs :=
    if_neg (by simpa [Written] using h)
  have hmark : (if t.date.year < 0 then '-' else '+') = '-' ∨
      (if t.date.year < 0 then '-' else '+') = '+' := by
    split_ifs <;> simp
  rw [read?, writeZulu, write, hsign]
  simp only [List.cons_append, takeNumber_sign hmark]
  rfl

theorem read?_writeZulu_eq (t : Instant) :
    read? (writeZulu t) = if Written t then some t else none := by
  split_ifs with h
  · exact read?_writeZulu h
  · exact read?_writeZulu_of_not_written h

end Rfc3339

end Vigil
