import Mathlib
import Vigil.Proofs.Text.Utf8
import Vigil.Wire.Message

/-! What is written on the wire is read as it was, and nothing is read from less room than it is
written in: variable-length integers, keys, stretches of bytes behind their length, and fields that
are passed over. -/
namespace Vigil.Wire

variable {bytes rest body : Bytes} {n m : Nat}

theorem bind_eq_ok {α β : Type} {x : Except DecodeError α} {f : α → Except DecodeError β} {b : β} :
    x >>= f = .ok b ↔ ∃ a, x = .ok a ∧ f a = .ok b := by
  cases x with
  | error e => exact ⟨nofun, fun ⟨_, h, _⟩ => nomatch h⟩
  | ok a => exact ⟨fun h => ⟨a, rfl, h⟩, fun ⟨_, h, hf⟩ => by cases h; exact hf⟩

theorem map_eq_ok {α β : Type} {x : Except DecodeError α} {f : α → β} {b : β} :
    x.map f = .ok b ↔ ∃ a, x = .ok a ∧ f a = b := by
  cases x with
  | error e => exact ⟨nofun, fun ⟨_, h, _⟩ => nomatch h⟩
  | ok a =>
    refine ⟨fun h => ⟨a, rfl, Except.ok.inj h⟩, fun ⟨_, h, hf⟩ => ?_⟩
    cases h
    exact congrArg Except.ok hf

/-! ### Variable-length integers -/

/-- How many bytes a number is written in. -/
def varintSize (n : Nat) : Nat := (putVarint n).length

theorem putVarint_of_lt (h : n < 128) : putVarint n = [n.toUInt8] := by
  rw [putVarint, if_pos h]

theorem putVarint_of_le (h : 128 ≤ n) :
    putVarint n = (128 + n % 128).toUInt8 :: putVarint (n / 128) := by
  rw [putVarint, if_neg (Nat.not_lt.mpr h)]

theorem varintSize_of_lt (h : n < 128) : varintSize n = 1 := by
  rw [varintSize, putVarint_of_lt h]
  rfl

theorem varintSize_of_le (h : 128 ≤ n) : varintSize n = varintSize (n / 128) + 1 := by
  rw [varintSize, putVarint_of_le h, List.length_cons, varintSize]

theorem varintSize_pos (n : Nat) : 1 ≤ varintSize n := by
  by_cases h : n < 128
  · rw [varintSize_of_lt h]
  · rw [varintSize_of_le (Nat.le_of_not_lt h)]
    omega

theorem varintSize_mono (h : n ≤ m) : varintSize n ≤ varintSize m := by
  induction m using Nat.strongRecOn generalizing n with
  | _ m ih =>
    by_cases hn : n < 128
    · rw [varintSize_of_lt hn]
      exact varintSize_pos m
    · have hm : 128 ≤ m := by omega
      rw [varintSize_of_le (Nat.le_of_not_lt hn), varintSize_of_le hm]
      exact Nat.succ_le_succ (ih (m / 128) (by omega) (Nat.div_le_div_right h))

/-- A group of seven bits in front takes one byte more. -/
theorem varintSize_group_le (low : Nat) (h : low < 128) (n : Nat) :
    varintSize (low + 128 * n) ≤ varintSize n + 1 := by
  by_cases hsmall : low + 128 * n < 128
  · rw [varintSize_of_lt hsmall]
    omega
  · have hdiv : (low + 128 * n) / 128 = n := by omega
    rw [varintSize_of_le (Nat.le_of_not_lt hsmall), hdiv]

theorem varintSize_double_le (n : Nat) : varintSize (2 * n) ≤ varintSize n + 1 :=
  Nat.le_trans (varintSize_mono (by omega)) (varintSize_group_le 0 (by omega) n)

theorem varintSize_add_le (n m : Nat) : varintSize (n + m) ≤ varintSize n + varintSize m := by
  have hn := varintSize_pos n
  have hm := varintSize_pos m
  have hdouble := varintSize_double_le (max n m)
  have hle : varintSize (n + m) ≤ varintSize (2 * max n m) := varintSize_mono (by omega)
  rcases Nat.le_total n m with h | h
  · rw [Nat.max_eq_right h] at hdouble hle
    omega
  · rw [Nat.max_eq_left h] at hdouble hle
    omega

theorem varintSize_le_ten (h : n ≤ u64Max) : varintSize n ≤ 10 := by
  have hmax : varintSize u64Max = 10 := by
    simp [u64Max, varintSize_of_le, varintSize_of_lt]
  exact hmax ▸ varintSize_mono h

/-- Numbers of 32 bits with the highest one set take five bytes at least. -/
theorem five_le_varintSize (h : 2147483648 ≤ n) : 5 ≤ varintSize n := by
  have hleast : varintSize 2147483648 = 5 := by
    simp [varintSize_of_le, varintSize_of_lt]
  exact hleast ▸ varintSize_mono h

/-- With so many bytes after this one there is room for numbers of 7 more bits each, and one bit in
the tenth. -/
theorem takeVarintFrom_putVarint (left scale value : Nat) (h : n < 2 * 128 ^ left)
    (rest : Bytes) : takeVarintFrom (left + 1) scale value (putVarint n ++ rest) =
      .ok (value + n * scale, rest) := by
  induction left generalizing n scale value with
  | zero =>
    have hn : n < 2 := by simpa using h
    have hsmall : n < 128 := by omega
    rw [putVarint_of_lt hsmall]
    simp [takeVarintFrom, Nat.mod_eq_of_lt (show n < 256 by omega), hsmall,
      Nat.not_le.mpr hn]
  | succ left ih =>
    by_cases hsmall : n < 128
    · rw [putVarint_of_lt hsmall]
      simp [takeVarintFrom, Nat.mod_eq_of_lt (show n < 256 by omega), hsmall]
    · have hdiv : n / 128 < 2 * 128 ^ left := by
        rw [Nat.div_lt_iff_lt_mul (by decide)]
        rw [Nat.pow_succ] at h
        omega
      have hbyte : (128 + n % 128).toUInt8.toNat = 128 + n % 128 := Utf8.toNat_ofByte (by omega)
      have hsum : value + n % 128 * scale + n / 128 * (scale * 128) = value + n * scale := by
        conv_rhs => rw [← Nat.mod_add_div n 128]
        ring
      rw [putVarint_of_le (Nat.le_of_not_lt hsmall), List.cons_append, takeVarintFrom]
      simp only [hbyte]
      rw [if_neg (by omega), Nat.add_sub_cancel_left, ih _ _ hdiv, hsum]

theorem takeVarint_putVarint (h : n ≤ u64Max) (rest : Bytes) :
    takeVarint (putVarint n ++ rest) = .ok (n, rest) := by
  have hlt : n < 2 * 128 ^ 9 := by
    unfold u64Max at h
    omega
  rw [takeVarint, takeVarintFrom_putVarint 9 1 0 hlt rest]
  simp

theorem takeVarintFrom_eq_ok {left scale value : Nat}
    (h : takeVarintFrom (left + 1) scale value bytes = .ok (m, rest)) :
    ∃ n, m = value + n * scale ∧ n < 2 * 128 ^ left ∧
      varintSize n + rest.length ≤ bytes.length := by
  induction left generalizing scale value bytes with
  | zero =>
    cases bytes with
    | nil => simp [takeVarintFrom, fail] at h
    | cons b tail =>
      rw [takeVarintFrom] at h
      split_ifs at h with hsmall hlarge
      · cases h
      · cases h
        have hb : b.toNat < 2 := by simpa using hlarge
        refine ⟨b.toNat, rfl, by simpa using hb, ?_⟩
        rw [varintSize_of_lt hsmall, List.length_cons, Nat.add_comm]
      · simp [takeVarintFrom, fail] at h
  | succ left ih =>
    cases bytes with
    | nil => simp [takeVarintFrom, fail] at h
    | cons b tail =>
      rw [takeVarintFrom] at h
      split_ifs at h with hsmall hlarge
      · simp at hlarge
      · cases h
        have hpos : 0 < 128 ^ left := Nat.pow_pos (by decide)
        refine ⟨b.toNat, rfl, ?_, ?_⟩
        · rw [Nat.pow_succ]
          omega
        · rw [varintSize_of_lt hsmall, List.length_cons, Nat.add_comm]
      · obtain ⟨n, rfl, hn, hlength⟩ := ih h
        have hb := b.toNat_lt
        have hgroup := varintSize_group_le (b.toNat - 128) (by omega) n
        refine ⟨b.toNat - 128 + 128 * n, by ring, ?_, ?_⟩
        · rw [Nat.pow_succ]
          omega
        · rw [List.length_cons]
          omega

/-- A number that is read has 64 bits, and is read from no less than it is written in. -/
theorem takeVarint_eq_ok (h : takeVarint bytes = .ok (n, rest)) :
    n ≤ u64Max ∧ varintSize n + rest.length ≤ bytes.length := by
  obtain ⟨n', hn, hlt, hlength⟩ := takeVarintFrom_eq_ok h
  have hsame : n = n' := by omega
  subst hsame
  refine ⟨?_, hlength⟩
  unfold u64Max
  omega

/-! ### Keys -/

variable {tag : Nat} {w : WireType} {key : Nat × WireType}

theorem ofCode?_code (w : WireType) : WireType.ofCode? w.code = some w := by cases w <;> rfl

theorem code_lt (w : WireType) : w.code < 8 := by cases w <;> decide

theorem takeKey_keyOf (hpos : 0 < tag) (hmax : keyOf tag w ≤ u32Max) (rest : Bytes) :
    takeKey (putVarint (keyOf tag w) ++ rest) = .ok ((tag, w), rest) := by
  have hcode := code_lt w
  have hsmall : keyOf tag w ≤ u64Max := Nat.le_trans hmax (by decide)
  have hmod : keyOf tag w % 8 = w.code := by
    unfold keyOf
    omega
  have hdiv : keyOf tag w / 8 = tag := by
    unfold keyOf
    omega
  rw [takeKey, takeVarint_putVarint hsmall]
  simp only [bind, Except.bind]
  rw [if_neg (Nat.not_lt.mpr hmax), hmod, hdiv, ofCode?_code]
  simp [Nat.ne_of_gt hpos]

theorem takeKey_eq_ok (h : takeKey bytes = .ok (key, rest)) : rest.length < bytes.length := by
  obtain ⟨⟨n, left⟩, htake, h⟩ := bind_eq_ok.mp h
  have hlength := (takeVarint_eq_ok htake).2
  have hpos := varintSize_pos n
  simp only at h
  split at h
  · cases h
  · split at h
    · cases h
    · split at h
      · cases h
      · cases h
        omega

/-! ### Stretches of bytes -/

theorem takeBytes_append (body rest : Bytes) :
    takeBytes body.length (body ++ rest) = .ok (body, rest) := by
  rw [takeBytes, if_neg (by simp)]
  simp

theorem takeBytes_eq_ok (h : takeBytes n bytes = .ok (body, rest)) :
    body.length = n ∧ body.length + rest.length = bytes.length := by
  rw [takeBytes] at h
  split_ifs at h with hshort
  · cases h
  · cases h
    simp only [List.length_take, List.length_drop]
    omega

theorem length_delimited (body : Bytes) :
    (delimited body).length = varintSize body.length + body.length := List.length_append

theorem length_delimited_nil : (delimited []).length = 1 :=
  (length_delimited []).trans (varintSize_of_lt (by decide))

theorem takeDelimited_delimited (h : body.length ≤ u64Max) (rest : Bytes) :
    takeDelimited (delimited body ++ rest) = .ok (body, rest) := by
  rw [takeDelimited, delimited, List.append_assoc, takeVarint_putVarint h]
  exact takeBytes_append body rest

theorem takeDelimited_eq_ok (h : takeDelimited bytes = .ok (body, rest)) :
    (delimited body).length + rest.length ≤ bytes.length := by
  obtain ⟨⟨n, left⟩, htake, h⟩ := bind_eq_ok.mp h
  obtain ⟨hbody, hlength⟩ := takeBytes_eq_ok h
  have hvarint := (takeVarint_eq_ok htake).2
  rw [length_delimited, hbody]
  omega

/-! ### Fields that are passed over -/

theorem skipFrom_length {left depth : Nat} {group : List Nat}
    (h : skipFrom left depth group key bytes = .ok rest) : rest.length ≤ bytes.length := by
  induction left generalizing depth group key bytes with
  | zero => cases h
  | succ left ih =>
    obtain ⟨tag, w⟩ := key
    -- outside a group the bytes left are the answer; inside one the key of another field follows
    have hgoOn {bytes : Bytes} {next : Except DecodeError Bytes} (h : next = .ok rest)
        (hnext : next = .ok bytes ∨ ∃ depth group,
          next = takeKey bytes >>= fun p => skipFrom left depth group p.1 p.2) :
        rest.length ≤ bytes.length := by
      obtain rfl | ⟨depth, group, rfl⟩ := hnext
      · cases h
        exact Nat.le_refl _
      · obtain ⟨⟨key, behind⟩, hkey, h⟩ := bind_eq_ok.mp h
        exact Nat.le_trans (ih h) (Nat.le_of_lt (takeKey_eq_ok hkey))
    simp only [skipFrom] at h
    cases w with
    | endGroup =>
      simp only at h
      split at h
      · split at h
        · exact hgoOn h (by split <;> [exact .inl rfl; exact .inr ⟨_, _, rfl⟩])
        · cases h
      · split at h <;> cases h
    | varint =>
      simp only at h
      split at h
      · cases h
      · obtain ⟨⟨n, behind⟩, htake, h⟩ := bind_eq_ok.mp h
        have hvarint := (takeVarint_eq_ok htake).2
        have hrest : rest.length ≤ behind.length :=
          hgoOn h (by split <;> [exact .inl rfl; exact .inr ⟨_, _, rfl⟩])
        omega
    | thirtyTwoBit | sixtyFourBit =>
      simp only at h
      split at h
      · cases h
      · obtain ⟨⟨body, behind⟩, htake, h⟩ := bind_eq_ok.mp h
        have hbytes := (takeBytes_eq_ok htake).2
        have hrest : rest.length ≤ behind.length :=
          hgoOn h (by split <;> [exact .inl rfl; exact .inr ⟨_, _, rfl⟩])
        omega
    | lengthDelimited =>
      simp only at h
      split at h
      · cases h
      · obtain ⟨⟨n, behind⟩, hlength, h⟩ := bind_eq_ok.mp h
        obtain ⟨⟨body, behind'⟩, htake, h⟩ := bind_eq_ok.mp h
        have hvarint := (takeVarint_eq_ok hlength).2
        have hbytes : body.length + behind'.length = behind.length := (takeBytes_eq_ok htake).2
        have hrest : rest.length ≤ behind'.length :=
          hgoOn h (by split <;> [exact .inl rfl; exact .inr ⟨_, _, rfl⟩])
        omega
    | startGroup =>
      simp only at h
      split at h
      · cases h
      · exact hgoOn h (.inr ⟨_, _, rfl⟩)

theorem skip_length {depth : Nat} (h : skip depth key bytes = .ok rest) :
    rest.length ≤ bytes.length := skipFrom_length h

end Vigil.Wire
