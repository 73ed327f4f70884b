import Mathlib
import Vigil.Proofs.Wire.Fields

/-! A message whose fields keep their law is read as it was written, at the end of the bytes and
inside another message, and what is read takes no more than twice the room when it is written. -/
namespace Vigil.Wire

variable {α β : Type} {height depth : Nat}

theorem mapError_eq_ok {x : Except DecodeError β} {f : DecodeError → DecodeError} {b : β} :
    x.mapError f = .ok b ↔ x = .ok b := by
  cases x <;> simp [Except.mapError]

/-! ### What one of many fields writes -/

namespace Field

variable {fields : List (Field α)} {f : Field α} {a b : α}

/-- All that a field writes, each time behind the key. -/
def written (f : Field α) (a : α) : Bytes :=
  (f.put a).flatMap fun body => putVarint (keyOf f.tag f.wireType) ++ body

theorem length_key (h : f.tag < 16) : (putVarint (keyOf f.tag f.wireType)).length = 1 := by
  have hcode := code_lt f.wireType
  refine varintSize_of_lt ?_
  unfold keyOf
  omega

theorem length_written (h : f.tag < 16) (a : α) : (f.written a).length = f.size a := by
  simp only [written, size, List.length_flatMap, List.length_append, length_key h]

theorem length_le_written {body : Bytes} (h : body ∈ f.put a) :
    body.length ≤ (f.written a).length := by
  have hpart : body.length ≤ (putVarint (keyOf f.tag f.wireType) ++ body).length := by simp
  have hsum := List.le_sum_of_mem (List.mem_map_of_mem
    (f := fun body => (putVarint (keyOf f.tag f.wireType) ++ body).length) h)
  rw [written, List.length_flatMap]
  exact Nat.le_trans hpart hsum

theorem distinct_cons {g : Field α} (h : ((g :: fields).map (·.tag)).Nodup) :
    (∀ f ∈ fields, f.tag ≠ g.tag) ∧ (fields.map (·.tag)).Nodup := by
  obtain ⟨hg, hfields⟩ := List.nodup_cons.mp h
  exact ⟨fun f hf htag => hg (List.mem_map.mpr ⟨f, hf, htag⟩), hfields⟩

/-- Where one field changes alone, the whole changes by what that field does. -/
theorem sum_size_of_apart (hdistinct : (fields.map (·.tag)).Nodup) (hf : f ∈ fields)
    (hapart : ∀ g ∈ fields, g.tag ≠ f.tag → g.put b = g.put a) :
    (fields.map (·.size b)).sum + f.size a = (fields.map (·.size a)).sum + f.size b := by
  have hsize (g : Field α) (hg : g ∈ fields) (htag : g.tag ≠ f.tag) : g.size b = g.size a := by
    rw [size, size, hapart g hg htag]
  clear hapart
  induction fields with
  | nil => cases hf
  | cons g fields ih =>
    obtain ⟨htag, hdistinct⟩ := distinct_cons hdistinct
    simp only [List.map_cons, List.sum_cons]
    rcases List.mem_cons.mp hf with rfl | hf
    · have hrest : fields.map (·.size b) = fields.map (·.size a) :=
        List.map_congr_left fun g hg => hsize g (List.mem_cons_of_mem _ hg) (htag g hg)
      rw [hrest]
      omega
    · have hrest := ih hdistinct hf fun g' hg => hsize g' (List.mem_cons_of_mem _ hg)
      have hsame := hsize g List.mem_cons_self (htag f hf).symm
      omega

theorem find?_tag (hdistinct : (fields.map (·.tag)).Nodup) (hf : f ∈ fields) :
    (fields.find? fun g => g.tag == f.tag) = some f := by
  induction fields with
  | nil => cases hf
  | cons g fields ih =>
    obtain ⟨htag, hdistinct⟩ := distinct_cons hdistinct
    rcases List.mem_cons.mp hf with rfl | hf
    · exact List.find?_cons_of_pos (beq_self_eq_true _)
    · rw [List.find?_cons_of_neg (by simpa using (htag f hf).symm)]
      exact ih hdistinct hf

end Field

namespace Message

/-- The fields of a message are told apart by small tags, keep their law, write nothing of the
empty message, and copied one after the other make up the whole. -/
structure Lawful (m : Message α) (height : Nat) : Prop where
  distinct : (m.fields.map (·.tag)).Nodup
  tags : ∀ f ∈ m.fields, 0 < f.tag ∧ f.tag < 16
  blank : ∀ f ∈ m.fields, f.put m.empty = []
  copies : ∃ copies : List (α → α → α),
    List.Forall₂ (Field.Lawful m.fields height) m.fields copies ∧
      ∀ b, copies.foldl (fun a copy => copy a b) m.empty = b

variable {m : Message α} {a b c : α} {bytes rest : Bytes}

theorem encode_eq (m : Message α) (a : α) : m.encode a = m.fields.flatMap (·.written a) := rfl

theorem length_encode (h : m.Lawful height) (a : α) :
    (m.encode a).length = (m.fields.map (·.size a)).sum := by
  have hsame : m.fields.map (fun f => (f.written a).length) = m.fields.map (·.size a) :=
    List.map_congr_left fun f hf => Field.length_written (h.tags f hf).2 a
  rw [encode_eq, List.length_flatMap, hsame]

theorem encode_empty (h : m.Lawful height) : m.encode m.empty = [] := by
  refine List.flatMap_eq_nil_iff.mpr fun f hf => ?_
  rw [h.blank f hf, List.flatMap_nil]

theorem Lawful.field (h : m.Lawful height) {f : Field α} (hf : f ∈ m.fields) :
    ∃ copy, f.Lawful m.fields height copy := by
  obtain ⟨copies, hcopies, _⟩ := h.copies
  obtain ⟨i, hi, rfl⟩ := List.getElem_of_mem hf
  have hi' : i < copies.length := hcopies.length_eq ▸ hi
  exact ⟨copies.get ⟨i, hi'⟩, hcopies.get hi hi'⟩

/-! ### The room of what is read -/

theorem takeField_room (h : m.Lawful height) {key : Nat × WireType}
    (htake : m.takeField depth a key bytes = .ok (b, rest)) :
    rest.length ≤ bytes.length ∧
      (m.encode b).length + 2 * rest.length ≤ (m.encode a).length + 2 * (1 + bytes.length) := by
  unfold takeField at htake
  split at htake
  next =>
    obtain ⟨_, hskip, heq⟩ := map_eq_ok.mp htake
    cases heq
    have hrest := skip_length hskip
    omega
  next f hfind =>
    have hf : f ∈ m.fields := List.mem_of_find?_eq_some hfind
    obtain ⟨copy, hlaw⟩ := h.field hf
    have hread := mapError_eq_ok.mp htake
    split at hread
    next =>
      obtain ⟨hcopy, hrest, hsize⟩ := hlaw.reads depth a b bytes rest hread
      have hsum := Field.sum_size_of_apart (a := a) (b := b) h.distinct hf fun g hg htag => by
        rw [← hcopy, hlaw.apart g hg htag a b]
      rw [length_encode h, length_encode h]
      omega
    next => cases hread

theorem takeFields_room (h : m.Lawful height) {limit left : Nat}
    (htake : m.takeFields depth limit left a bytes = .ok (b, rest)) :
    rest.length ≤ bytes.length ∧
      (m.encode b).length + 2 * rest.length ≤ (m.encode a).length + 2 * bytes.length := by
  induction left generalizing a bytes with
  | zero =>
    cases htake
    omega
  | succ left ih =>
    rw [takeFields] at htake
    split_ifs at htake with hdone
    · cases htake
      omega
    · obtain ⟨⟨key, behindKey⟩, hkey, htake⟩ := bind_eq_ok.mp htake
      obtain ⟨⟨mid, behind⟩, hfield, htake⟩ := bind_eq_ok.mp htake
      have hkeyRoom := takeKey_eq_ok hkey
      have hfieldRoom := takeField_room h hfield
      have hrestRoom := ih htake
      omega

theorem takeNested_room (h : m.Lawful height)
    (htake : m.takeNested depth a bytes = .ok (b, rest)) :
    rest.length ≤ bytes.length ∧ (delimited (m.encode b)).length + 2 * rest.length ≤
      (delimited (m.encode a)).length + 2 * bytes.length := by
  unfold takeNested at htake
  split at htake
  · cases htake
  obtain ⟨⟨n, behind⟩, hlength, htake⟩ := bind_eq_ok.mp htake
  simp only at htake
  split_ifs at htake with hshort
  · cases htake
  obtain ⟨⟨_, _⟩, hfields, htake⟩ := bind_eq_ok.mp htake
  simp only at htake
  split_ifs at htake with hlimit
  · cases htake
    have hvarint := (takeVarint_eq_ok hlength).2
    have hroom := (takeFields_room h hfields).2
    have hpos := varintSize_pos n
    have hgrown : varintSize (m.encode b).length ≤
        varintSize (m.encode a).length + (varintSize n + 1) :=
      calc varintSize (m.encode b).length
          ≤ varintSize ((m.encode a).length + 2 * n) := varintSize_mono (by omega)
        _ ≤ varintSize (m.encode a).length + varintSize (2 * n) := varintSize_add_le _ _
        _ ≤ _ := Nat.add_le_add_left (varintSize_double_le n) _
    rw [length_delimited, length_delimited]
    omega
  · cases htake

/-! ### Reading what was written -/

theorem takeFields_done (m : Message α) {limit : Nat} (h : bytes.length ≤ limit)
    (depth left : Nat) (a : α) : m.takeFields depth limit left a bytes = .ok (a, bytes) := by
  cases left with
  | zero => rfl
  | succ left => rw [takeFields, if_pos h]

/-- Read in front of anything, the bytes lead from one message to another. -/
def Takes (m : Message α) (depth : Nat) (a : α) (bytes : Bytes) (b : α) : Prop :=
  ∃ n ≤ bytes.length, ∀ left limit rest, limit ≤ rest.length →
    m.takeFields depth limit (n + left) a (bytes ++ rest) = m.takeFields depth limit left b rest

theorem Takes.nil (m : Message α) (depth : Nat) (a : α) : m.Takes depth a [] a :=
  ⟨0, Nat.le_refl 0, fun left limit rest _ => by rw [Nat.zero_add, List.nil_append]⟩

theorem Takes.append {front back : Bytes} (hfront : m.Takes depth a front b)
    (hback : m.Takes depth b back c) : m.Takes depth a (front ++ back) c := by
  obtain ⟨n, hn, hfront⟩ := hfront
  obtain ⟨k, hk, hback⟩ := hback
  refine ⟨n + k, by rw [List.length_append]; omega, fun left limit rest hlimit => ?_⟩
  have hroom : limit ≤ (back ++ rest).length := by
    rw [List.length_append]
    omega
  rw [List.append_assoc, Nat.add_assoc, hfront (k + left) limit (back ++ rest) hroom,
    hback left limit rest hlimit]

theorem takes_body (h : m.Lawful height) {f : Field α} (hf : f ∈ m.fields) {body : Bytes}
    (htake : ∀ rest, f.take depth a (body ++ rest) = .ok (b, rest)) :
    m.Takes depth a (putVarint (keyOf f.tag f.wireType) ++ body) b := by
  obtain ⟨hpos, hsmall⟩ := h.tags f hf
  have hkey := Field.length_key hsmall
  have hcode := code_lt f.wireType
  have hmax : keyOf f.tag f.wireType ≤ u32Max := by
    unfold keyOf u32Max
    omega
  refine ⟨1, by rw [List.length_append]; omega, fun left limit rest hlimit => ?_⟩
  have hmore : ¬ (putVarint (keyOf f.tag f.wireType) ++ (body ++ rest)).length ≤ limit := by
    simp only [List.length_append]
    omega
  have hfield : m.takeField depth a (f.tag, f.wireType) (body ++ rest) = .ok (b, rest) := by
    rw [takeField, Field.find?_tag h.distinct hf]
    simp only [if_pos, htake, Except.mapError]
  rw [List.append_assoc, Nat.add_comm, takeFields, if_neg hmore, takeKey_keyOf hpos hmax]
  simp only [bind, Except.bind, hfield]

theorem takes_bodies (h : m.Lawful height) {f : Field α} (hf : f ∈ m.fields)
    {bodies : List Bytes} (hfollows : f.Follows depth a bodies b) :
    m.Takes depth a (bodies.flatMap fun body => putVarint (keyOf f.tag f.wireType) ++ body) b := by
  induction hfollows with
  | nil a => exact .nil m depth a
  | cons head tail ih =>
    rw [List.flatMap_cons]
    exact (takes_body h hf head).append ih

/-- The fields one after the other, each of which finds its own part of the message still blank. -/
theorem takes_written (h : m.Lawful height) (hdepth : height ≤ depth) {fields : List (Field α)}
    {copies : List (α → α → α)}
    (hlaws : List.Forall₂ (Field.Lawful m.fields height) fields copies)
    (hsub : fields ⊆ m.fields) (hdistinct : (fields.map (·.tag)).Nodup)
    (hblank : ∀ f ∈ fields, f.put a = [])
    (hfits : ∀ f ∈ fields, ∀ body ∈ f.put b, body.length ≤ u64Max) :
    m.Takes depth a (fields.flatMap (·.written b)) (copies.foldl (fun a copy => copy a b) a) := by
  induction hlaws generalizing a with
  | nil => exact .nil m depth a
  | @cons f copy fields copies hlaw hlaws ih =>
    obtain ⟨hf, hsub⟩ := List.cons_subset.mp hsub
    obtain ⟨htag, hdistinct⟩ := Field.distinct_cons hdistinct
    have hblankRest (g : Field α) (hg : g ∈ fields) : g.put (copy a b) = [] := by
      rw [hlaw.apart g (hsub hg) (htag g hg) a b]
      exact hblank g (List.mem_cons_of_mem f hg)
    have hhead := hlaw.restores depth a b hdepth (hblank f List.mem_cons_self)
      (hfits f List.mem_cons_self)
    have htail := ih hsub hdistinct hblankRest fun g hg => hfits g (List.mem_cons_of_mem f hg)
    rw [List.flatMap_cons, List.foldl_cons]
    exact (takes_bodies h hf hhead).append htail

theorem takes_encode (h : m.Lawful height) (hdepth : height ≤ depth)
    (hfits : (m.encode a).length ≤ u64Max) : m.Takes depth m.empty (m.encode a) a := by
  obtain ⟨copies, hlaws, hwhole⟩ := h.copies
  have hbodies (f : Field α) (hf : f ∈ m.fields) (body : Bytes) (hbody : body ∈ f.put a) :
      body.length ≤ u64Max := by
    have hwritten : (f.written a).length ≤ (m.encode a).length := by
      rw [encode_eq, List.length_flatMap]
      exact List.le_sum_of_mem (List.mem_map_of_mem (f := fun f => (f.written a).length) hf)
    exact Nat.le_trans (Field.length_le_written hbody) (Nat.le_trans hwritten hfits)
  have htakes := takes_written h hdepth hlaws (List.Subset.refl _) h.distinct h.blank hbodies
  rwa [hwhole] at htakes

theorem decode_encode (h : m.Lawful height) (hdepth : height ≤ depthLimit)
    (hfits : (m.encode a).length ≤ u64Max) : m.decode (m.encode a) = .ok a := by
  obtain ⟨n, hn, htakes⟩ := takes_encode h hdepth hfits
  have hread := htakes ((m.encode a).length - n) 0 [] (Nat.zero_le _)
  have hdone := takeFields_done m (Nat.le_of_eq List.length_nil) depthLimit
  rw [List.append_nil, Nat.add_sub_cancel' hn, hdone] at hread
  exact map_eq_ok.mpr ⟨_, hread, rfl⟩

theorem decode_room (h : m.Lawful height) (hdecode : m.decode bytes = .ok a) :
    (m.encode a).length ≤ 2 * bytes.length := by
  obtain ⟨⟨_, rest⟩, htake, rfl⟩ := map_eq_ok.mp hdecode
  have hroom := (takeFields_room h htake).2
  rw [encode_empty h, List.length_nil] at hroom
  simp only
  omega

/-! ### Messages inside another -/

theorem Lawful.codec (h : m.Lawful height) :
    Codec (height + 1) (fun a => delimited (m.encode a))
      fun depth => m.takeNested depth m.empty where
  take_put depth a rest hdepth hfits := by
    rw [length_delimited] at hfits
    have hinner : height ≤ depth - 1 := by omega
    have hbody : (m.encode a).length ≤ u64Max := by omega
    obtain ⟨n, hn, htakes⟩ := takes_encode h hinner hbody
    have hread := htakes ((m.encode a ++ rest).length - n) rest.length rest (Nat.le_refl _)
    have hcount : n + ((m.encode a ++ rest).length - n) = (m.encode a ++ rest).length :=
      Nat.add_sub_cancel' (by rw [List.length_append]; omega)
    have hlimit : (m.encode a ++ rest).length - (m.encode a).length = rest.length := by
      rw [List.length_append]
      omega
    rw [hcount, takeFields_done m (Nat.le_refl _)] at hread
    have hdeep : (depth == 0) = false := by
      rw [beq_eq_false_iff_ne]
      omega
    rw [takeNested, hdeep, delimited, List.append_assoc, takeVarint_putVarint (by omega)]
    simp only [Bool.false_eq_true, if_false, bind, Except.bind, hlimit, hread, if_true]
    rw [if_neg (by rw [List.length_append]; omega)]
  room depth a bytes rest htake := by
    have hroom := takeNested_room h htake
    rw [encode_empty h, length_delimited_nil] at hroom
    exact hroom

variable {fields : List (Field β)} {tag : Nat} {name : String}

theorem nestedList_lawful (h : m.Lawful height) {get : β → List α} {set : β → List α → β}
    (hslot : Slot fields tag get set) :
    (Field.nestedList tag name m get set).Lawful fields (height + 1) fun a b => set a (get b) :=
  appended_lawful hslot (fun _ => rfl) (fun _ _ _ => rfl) h.codec

/-- What is read into a message that is absent begins with the empty one. -/
theorem nested_lawful (h : m.Lawful height) {get : β → Option α} {set : β → Option α → β}
    (hslot : Slot fields tag get set) :
    (Field.nested tag name m get set).Lawful fields (height + 1) fun a b => set a (get b) where
  apart g hg htag a b := hslot.put_set hg htag a (get b)
  restores depth a b hdepth hblank hfits := by
    have ha : get a = none := by simpa [Field.nested] using hblank
    cases hb : get b with
    | none =>
      have hsame : set a none = a := by rw [← ha, hslot.set_get]
      simp only [Field.nested, hb, Option.toList_none, List.map_nil, hsame]
      exact .nil a
    | some inner =>
      simp only [Field.nested, hb, Option.toList_some, List.map_cons, List.map_nil] at hfits ⊢
      refine .cons (fun rest => ?_) (.nil _)
      simp only [ha, Option.getD_none]
      rw [h.codec.take_put depth inner rest hdepth (hfits _ (List.mem_singleton_self _))]
      rfl
  reads depth a a' bytes rest htake := by
    obtain ⟨⟨inner, _⟩, hinner, heq⟩ := map_eq_ok.mp htake
    cases heq
    obtain ⟨hrest, hroom⟩ := takeNested_room h hinner
    have hsize : (Field.nested tag name m get set).size (set a (some inner)) =
        1 + (delimited (m.encode inner)).length := by
      simp [Field.size, Field.nested, hslot.get_set]
    have hbefore : (delimited (m.encode ((get a).getD m.empty))).length ≤
        1 + (Field.nested tag name m get set).size a := by
      cases ha : get a with
      | none =>
        rw [Option.getD_none, encode_empty h, length_delimited_nil]
        exact Nat.le_add_right 1 _
      | some old =>
        simp [Field.size, Field.nested, ha]
        omega
    refine ⟨hslot.set_get_set a _, hrest, ?_⟩
    omega

end Message

end Vigil.Wire
