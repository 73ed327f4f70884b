import Mathlib
import Vigil.Proofs.Wire.Format

/-! The law of a field: it restores what it has written, it changes no other field, and what it
reads takes no more than twice the room when it is written. A field keeps the law if its values are
written and read by a codec, and if the part of the message that it holds is a slot of its own. -/
namespace Vigil.Wire

variable {α β : Type}

/-- A part of a message that is read by `get` and replaced by `set`, and that no field with another
tag writes anything of. -/
structure Slot (fields : List (Field α)) (tag : Nat) (get : α → β) (set : α → β → α) : Prop where
  get_set : ∀ a v, get (set a v) = v
  set_get : ∀ a, set a (get a) = a
  set_set : ∀ a v w, set (set a v) w = set a w
  apart : ∀ a v, (fields.filter (·.tag != tag)).map (·.put (set a v)) =
    (fields.filter (·.tag != tag)).map (·.put a)

/-- Values that are read as they were written, where messages may nest `height` deep and more. -/
structure Codec (height : Nat) (put : β → Bytes)
    (take : Nat → Bytes → Except DecodeError (β × Bytes)) : Prop where
  take_put : ∀ depth v rest, height ≤ depth → (put v).length ≤ u64Max →
    take depth (put v ++ rest) = .ok (v, rest)
  /-- A small number that stands for a negative one is written in twice the room. -/
  room : ∀ depth v bytes rest, take depth bytes = .ok (v, rest) →
    rest.length ≤ bytes.length ∧ (put v).length + 2 * rest.length ≤ 1 + 2 * bytes.length

namespace Field

/-- The room a field takes, its keys being of one byte. -/
def size (f : Field α) (a : α) : Nat := ((f.put a).map fun body => 1 + body.length).sum

/-- Reading the bodies one after the other leads from one message to another. -/
inductive Follows (f : Field α) (depth : Nat) : α → List Bytes → α → Prop
  | nil (a : α) : Follows f depth a [] a
  | cons {a b c : α} {body : Bytes} {bodies : List Bytes}
    (head : ∀ rest, f.take depth a (body ++ rest) = .ok (b, rest))
    (tail : Follows f depth b bodies c) : Follows f depth a (body :: bodies) c

/-- `copy a b` is `a` with what the field holds in `b`. -/
structure Lawful (fields : List (Field α)) (height : Nat) (f : Field α)
    (copy : α → α → α) : Prop where
  apart : ∀ g ∈ fields, g.tag ≠ f.tag → ∀ a b, g.put (copy a b) = g.put a
  restores : ∀ depth a b, height ≤ depth → f.put a = [] →
    (∀ body ∈ f.put b, body.length ≤ u64Max) → f.Follows depth a (f.put b) (copy a b)
  /-- What is read changes this field alone, which then takes twice the room at most. -/
  reads : ∀ depth a a' bytes rest, f.take depth a bytes = .ok (a', rest) →
    copy a a' = a' ∧ rest.length ≤ bytes.length ∧
      f.size a' + 2 * rest.length ≤ f.size a + 2 * (1 + bytes.length)

end Field

variable {fields : List (Field α)} {tag height : Nat} {name : String}

theorem Slot.put_set {get : α → β} {set : α → β → α} (h : Slot fields tag get set) {g : Field α}
    (hg : g ∈ fields) (htag : g.tag ≠ tag) (a : α) (v : β) : g.put (set a v) = g.put a := by
  have hother : g ∈ fields.filter (·.tag != tag) := List.mem_filter.mpr ⟨hg, by simpa using htag⟩
  exact List.map_inj_left.mp (h.apart a v) g hother

/-- Reading back what has been set changes nothing more. -/
theorem Slot.set_get_set {get : α → β} {set : α → β → α} (h : Slot fields tag get set) (a : α)
    (v : β) : set a (get (set a v)) = set a v := by
  rw [h.get_set]

section Plain

variable {w : WireType} {get : α → β} {set : α → β → α} {isEmpty : β → Bool} {put : β → Bytes}
  {take : Bytes → Except DecodeError (β × Bytes)}

theorem plain_lawful (hslot : Slot fields tag get set)
    (hempty : ∀ v w, isEmpty v = true → isEmpty w = true → v = w)
    (hcodec : Codec height put fun _ => take) :
    (Field.plain tag name w get set isEmpty put take).Lawful fields height
      fun a b => set a (get b) where
  apart g hg htag a b := hslot.put_set hg htag a (get b)
  restores depth a b hdepth hblank hfits := by
    have ha : isEmpty (get a) = true := by simpa [Field.plain] using hblank
    by_cases hb : isEmpty (get b) = true
    · have hsame : set a (get b) = a := by rw [hempty _ _ hb ha, hslot.set_get]
      simp only [Field.plain, hb, if_true, hsame]
      exact .nil a
    · simp only [Field.plain, hb] at hfits ⊢
      have hput : (put (get b)).length ≤ u64Max := hfits _ (List.mem_singleton_self _)
      refine .cons (fun rest => ?_) (.nil _)
      exact map_eq_ok.mpr ⟨_, hcodec.take_put depth (get b) rest hdepth hput, rfl⟩
  reads depth a a' bytes rest h := by
    obtain ⟨⟨v, _⟩, htake, heq⟩ := map_eq_ok.mp h
    cases heq
    obtain ⟨hrest, hroom⟩ := hcodec.room depth v bytes rest htake
    have hsize : (Field.plain tag name w get set isEmpty put take).size (set a v) ≤
        1 + (put v).length := by
      simp only [Field.size, Field.plain, hslot.get_set]
      split <;> simp
    refine ⟨hslot.set_get_set a v, hrest, ?_⟩
    omega

end Plain

section Appended

variable {get : α → List β} {set : α → List β → α} {put : β → Bytes}
  {take : Nat → Bytes → Except DecodeError (β × Bytes)} {f : Field α}

theorem follows_appended (hslot : Slot fields tag get set)
    (htake : ∀ depth a bytes, f.take depth a bytes =
      (take depth bytes).map fun (v, rest) => (set a (get a ++ [v]), rest))
    (hcodec : Codec height put take) {depth : Nat} (hdepth : height ≤ depth) (a : α)
    (values before : List β) (hfits : ∀ v ∈ values, (put v).length ≤ u64Max) :
    f.Follows depth (set a before) (values.map put) (set a (before ++ values)) := by
  induction values generalizing before with
  | nil =>
    rw [List.append_nil]
    exact .nil _
  | cons v values ih =>
    have hread (rest : Bytes) : f.take depth (set a before) (put v ++ rest) =
        .ok (set a (before ++ [v]), rest) := by
      rw [htake, hcodec.take_put depth v rest hdepth (hfits v List.mem_cons_self)]
      simp only [Except.map, hslot.get_set, hslot.set_set]
    have htail := ih (before ++ [v]) fun u hu => hfits u (List.mem_cons_of_mem v hu)
    rw [List.append_assoc, List.singleton_append] at htail
    exact .cons hread htail

/-- A field of which each value that is read comes behind those before it. -/
theorem appended_lawful (hslot : Slot fields f.tag get set)
    (hput : ∀ a, f.put a = (get a).map put)
    (htake : ∀ depth a bytes, f.take depth a bytes =
      (take depth bytes).map fun (v, rest) => (set a (get a ++ [v]), rest))
    (hcodec : Codec height put take) :
    f.Lawful fields height fun a b => set a (get b) where
  apart g hg htag a b := hslot.put_set hg htag a (get b)
  restores depth a b hdepth hblank hfits := by
    rw [hput] at hblank hfits ⊢
    have ha : set a [] = a := by rw [← List.map_eq_nil_iff.mp hblank, hslot.set_get]
    have hfollows := follows_appended hslot htake hcodec hdepth a (get b) [] fun v hv =>
      hfits _ (List.mem_map_of_mem hv)
    rwa [ha] at hfollows
  reads depth a a' bytes rest h := by
    rw [htake] at h
    obtain ⟨⟨v, _⟩, hv, heq⟩ := map_eq_ok.mp h
    cases heq
    obtain ⟨hrest, hroom⟩ := hcodec.room depth v bytes rest hv
    have hsize : f.size (set a (get a ++ [v])) = f.size a + (1 + (put v).length) := by
      simp [Field.size, hput, hslot.get_set]
    refine ⟨hslot.set_get_set a _, hrest, ?_⟩
    omega

end Appended

/-! ### The kinds of values -/

theorem delimited_codec : Codec height delimited fun _ => takeDelimited where
  take_put _ body rest _ hfits := by
    rw [length_delimited] at hfits
    exact takeDelimited_delimited (by omega) rest
  room _ body bytes rest h := by
    have hroom := takeDelimited_eq_ok h
    omega

theorem text_codec : Codec height Field.putText fun _ => Field.takeText where
  take_put _ s rest _ hfits := by
    have hread := delimited_codec.take_put 0 (Utf8.encodeText s) rest (Nat.le_refl 0) hfits
    refine bind_eq_ok.mpr ⟨_, hread, ?_⟩
    simp only [Utf8.decodeText?_encodeText]
  room depth s bytes rest h := by
    obtain ⟨⟨body, behind⟩, hbody, h⟩ := bind_eq_ok.mp h
    simp only at h
    split at h
    next s' hs =>
      cases h
      rw [Field.putText, Utf8.encodeText_of_decodeText? hs]
      have hroom := takeDelimited_eq_ok hbody
      omega
    next => cases h

theorem bool_codec : Codec height (fun b : Bool => putVarint b.toNat)
    fun _ bytes => (takeVarint bytes).map fun (n, rest) => (n != 0, rest) where
  take_put _ b rest _ _ := by
    have hsmall : b.toNat ≤ u64Max := by cases b <;> decide
    rw [takeVarint_putVarint hsmall]
    cases b <;> rfl
  room _ b bytes rest h := by
    obtain ⟨⟨n, _⟩, hn, heq⟩ := map_eq_ok.mp h
    cases heq
    have hvarint := (takeVarint_eq_ok hn).2
    have hpos := varintSize_pos n
    have hone : (putVarint (n != 0).toNat).length = 1 := by
      cases n != 0 <;> exact varintSize_of_lt (by decide)
    omega

/-- An integer is kept by being written with 64 bits and cut to its own, if cutting a number of
64 bits gives one that is written in twice the room at most. -/
theorem int_codec {toInt : β → Int} {ofInt : Int → β}
    (hback : ∀ v, ofInt (toInt v % 18446744073709551616) = v)
    (hroom : ∀ n ≤ u64Max, (Field.putInt (toInt (ofInt n))).length ≤ 2 * varintSize n) :
    Codec height (fun v => Field.putInt (toInt v))
      fun _ bytes => (Field.takeInt bytes).map fun (n, rest) => (ofInt n, rest) where
  take_put _ v rest _ _ := by
    have hsmall : (toInt v % 18446744073709551616).toNat ≤ u64Max := by
      unfold u64Max
      omega
    have hcast : ((toInt v % 18446744073709551616).toNat : Int) =
        toInt v % 18446744073709551616 := by omega
    rw [Field.takeInt, Field.putInt, takeVarint_putVarint hsmall]
    simp only [Except.map, hcast, hback]
  room _ v bytes rest h := by
    obtain ⟨⟨n, _⟩, htake, heq⟩ := map_eq_ok.mp h
    cases heq
    obtain ⟨⟨n, _⟩, hn, heq⟩ := map_eq_ok.mp htake
    cases heq
    obtain ⟨hmax, hvarint⟩ := takeVarint_eq_ok hn
    have hput := hroom n hmax
    omega

theorem int32_codec : Codec height (fun v : Int32 => Field.putInt v.toInt)
    fun _ bytes => (Field.takeInt bytes).map fun (n, rest) => (Int32.ofInt n, rest) := by
  refine int_codec (fun v => ?_) (fun n hn => ?_)
  · have hlow : -2147483648 ≤ v.toInt := v.le_toInt
    have hhigh : v.toInt < 2147483648 := v.toInt_lt
    refine Int32.toInt_inj.mp ?_
    rw [Int32.toInt_ofInt, Int32.size, Int.bmod]
    omega
  · have hcut : (Int32.ofInt n).toInt = (n : Int).bmod 4294967296 := Int32.toInt_ofInt
    rw [hcut]
    by_cases hsign : n % 4294967296 < 2147483648
    · have hle : ((n : Int).bmod 4294967296 % 18446744073709551616).toNat ≤ n := by
        rw [Int.bmod]
        omega
      have hmono := varintSize_mono hle
      rw [varintSize] at hmono
      rw [Field.putInt]
      omega
    · have hfive := five_le_varintSize (n := n) (by omega)
      have hten := varintSize_le_ten
        (n := ((n : Int).bmod 4294967296 % 18446744073709551616).toNat) (by unfold u64Max; omega)
      rw [varintSize] at hten
      rw [Field.putInt]
      omega

theorem int64_codec : Codec height (fun v : Int64 => Field.putInt v.toInt)
    fun _ bytes => (Field.takeInt bytes).map fun (n, rest) => (Int64.ofInt n, rest) := by
  refine int_codec (fun v => ?_) (fun n hn => ?_)
  · have hlow : -9223372036854775808 ≤ v.toInt := v.le_toInt
    have hhigh : v.toInt < 9223372036854775808 := v.toInt_lt
    refine Int64.toInt_inj.mp ?_
    rw [Int64.toInt_ofInt, Int64.size, Int.bmod]
    omega
  · have hcut : (Int64.ofInt n).toInt = (n : Int).bmod 18446744073709551616 := Int64.toInt_ofInt
    have hsame : ((n : Int).bmod 18446744073709551616 % 18446744073709551616).toNat = n := by
      unfold u64Max at hn
      rw [Int.bmod]
      omega
    rw [hcut, Field.putInt, hsame]
    exact Nat.le_mul_of_pos_left _ (by decide)
/-! ### The kinds of fields -/

theorem text_lawful {get : α → String} {set : α → String → α} (h : Slot fields tag get set) :
    (Field.text tag name get set).Lawful fields height fun a b => set a (get b) :=
  plain_lawful h (fun _ _ hv hw => (beq_iff_eq.mp hv).trans (beq_iff_eq.mp hw).symm) text_codec

theorem bytes_lawful {get : α → Bytes} {set : α → Bytes → α} (h : Slot fields tag get set) :
    (Field.bytes tag name get set).Lawful fields height fun a b => set a (get b) :=
  plain_lawful h (fun _ _ hv hw => (List.isEmpty_iff.mp hv).trans (List.isEmpty_iff.mp hw).symm)
    delimited_codec

theorem int32_lawful {get : α → Int32} {set : α → Int32 → α} (h : Slot fields tag get set) :
    (Field.int32 tag name get set).Lawful fields height fun a b => set a (get b) :=
  plain_lawful h (fun _ _ hv hw => (beq_iff_eq.mp hv).trans (beq_iff_eq.mp hw).symm) int32_codec

theorem int64_lawful {get : α → Int64} {set : α → Int64 → α} (h : Slot fields tag get set) :
    (Field.int64 tag name get set).Lawful fields height fun a b => set a (get b) :=
  plain_lawful h (fun _ _ hv hw => (beq_iff_eq.mp hv).trans (beq_iff_eq.mp hw).symm) int64_codec

theorem bool_lawful {get : α → Bool} {set : α → Bool → α} (h : Slot fields tag get set) :
    (Field.bool tag name get set).Lawful fields height fun a b => set a (get b) :=
  plain_lawful h (fun _ _ hv hw => Bool.not_inj (hv.trans hw.symm)) bool_codec

theorem texts_lawful {get : α → List String} {set : α → List String → α}
    (h : Slot fields tag get set) :
    (Field.texts tag name get set).Lawful fields height fun a b => set a (get b) :=
  appended_lawful h (fun _ => rfl) (fun _ _ _ => rfl) text_codec

end Vigil.Wire
