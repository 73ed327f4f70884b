import Mathlib
import Vigil.Link.Channel
import Vigil.Proofs.Text.Digits

/-! Where a channel that was bound to a host and a port leads to: the authority that the grammar of
URIs finds in the pasted endpoint, which is that host and port only for hosts without delimiters. -/
namespace Vigil.Link

open Endpoint (endsAuthority checkAuthority checkRest)

variable {text host : String} {port : UInt16} {authority rest front back : List Char}

/-- The parts that the grammar finds behind an endpoint's scheme. -/
structure Splits (text : String) (authority rest : List Char) : Prop where
  whole : text.toList = "http://".toList ++ (authority ++ rest)
  inside : ∀ x ∈ authority, endsAuthority x = false
  boundary : ∀ x, rest.head? = some x → endsAuthority x = true

namespace Splits

theorem takeWhile (h : Splits text authority rest) :
    (authority ++ rest).takeWhile (fun x => !endsAuthority x) = authority := by
  have hinside : ∀ x ∈ authority, (!endsAuthority x) = true := fun x hx => by
    rw [h.inside x hx]
    rfl
  have hstop : rest.takeWhile (fun x => !endsAuthority x) = [] := by
    cases hrest : rest with
    | nil => rfl
    | cons x tail => simp [h.boundary x (by rw [hrest]; rfl)]
  rw [List.takeWhile_append_of_pos hinside, hstop, List.append_nil]

theorem unique {authority' rest' : List Char} (h : Splits text authority rest)
    (h' : Splits text authority' rest') : authority = authority' ∧ rest = rest' := by
  have hbehind : authority ++ rest = authority' ++ rest' :=
    List.append_cancel_left (h.whole.symm.trans h'.whole)
  have hauthority : authority = authority' := by
    rw [← h.takeWhile, hbehind, h'.takeWhile]
  subst hauthority
  exact ⟨rfl, List.append_cancel_left hbehind⟩

theorem ofText_eq (h : Splits text authority rest) : Endpoint.ofText text =
    if 65534 < text.utf8ByteSize then .error .tooLong
    else (do
      checkAuthority authority
      checkRest rest
      .ok ⟨text, authority⟩) := by
  have hdrop : text.toList.drop "http://".length = authority ++ rest := by
    rw [h.whole]
    rfl
  have htake := h.takeWhile
  unfold Endpoint.ofText
  simp only [hdrop, htake, List.drop_left]

theorem ofText_eq_ok_iff (h : Splits text authority rest) {e : Endpoint} :
    Endpoint.ofText text = .ok e ↔ text.utf8ByteSize ≤ 65534 ∧ checkAuthority authority = .ok () ∧
      checkRest rest = .ok () ∧ e = ⟨text, authority⟩ := by
  rw [h.ofText_eq]
  split_ifs with hsize
  · simp [Nat.not_le.mpr hsize]
  · cases checkAuthority authority with
    | error fault => simp [bind, Except.bind]
    | ok =>
      cases checkRest rest with
      | error fault => simp [bind, Except.bind]
      | ok =>
        simp only [bind, Except.bind, Except.ok.injEq, true_and]
        exact ⟨fun he => ⟨Nat.le_of_not_lt hsize, he.symm⟩, fun he => he.2.symm⟩

end Splits

/-! ### The hosts -/

/-- A host in which no authority ends. -/
def Bare (host : String) : Prop := ∀ x ∈ host.toList, endsAuthority x = false

/-- A host in which the authority ends behind `front`. -/
structure Cut (host : String) (front back : List Char) : Prop where
  whole : host.toList = front ++ back
  inside : ∀ x ∈ front, endsAuthority x = false
  boundary : ∃ x, back.head? = some x ∧ endsAuthority x = true

theorem bare_or_cut (host : String) : Bare host ∨ ∃ front back, Cut host front back := by
  let p (x : Char) : Bool := !endsAuthority x
  have hwhole : host.toList = host.toList.takeWhile p ++ host.toList.dropWhile p :=
    List.takeWhile_append_dropWhile.symm
  have hinside : ∀ x ∈ host.toList.takeWhile p, endsAuthority x = false := fun x hx => by
    simpa [p] using List.mem_takeWhile_imp hx
  cases hback : host.toList.dropWhile p with
  | nil =>
    rw [hback, List.append_nil] at hwhole
    exact .inl fun x hx => hinside x (hwhole ▸ hx)
  | cons x tail =>
    have hx : p x = false := by
      have hhead := List.head_dropWhile_not p (l := host.toList) (by simp [hback])
      simpa [hback] using hhead
    rw [hback] at hwhole
    exact .inr ⟨_, _, hwhole, hinside, x, rfl, by simpa [p] using hx⟩

theorem Cut.not_bare (h : Cut host front back) : ¬Bare host := fun hbare => by
  obtain ⟨x, hhead, hends⟩ := h.boundary
  have hx : x ∈ host.toList := by
    rw [h.whole]
    exact List.mem_append_right _ (List.mem_of_mem_head? hhead)
  rw [hbare x hx] at hends
  cases hends

/-- The port as it stands behind a host. -/
def portPart (port : UInt16) : List Char := ':' :: Text.decimal port.toNat

theorem toList_endpointOf (host : String) (port : UInt16) :
    (endpointOf host port).toList = "http://".toList ++ (host.toList ++ portPart port) := by
  simp [endpointOf, portPart, Text.decimal]

theorem endsAuthority_of_mem_portPart {x : Char} (h : x ∈ portPart port) :
    endsAuthority x = false ∧ x ≠ '@' := by
  obtain rfl | hdigit := List.mem_cons.mp h
  · decide
  · have hx := isDigit_iff.mp (Text.isDigit_of_mem_decimal hdigit)
    have hne (y : Char) (hy : y.toNat < 48 ∨ 57 < y.toNat) : x ≠ y := by
      rintro rfl
      omega
    simp [endsAuthority, hne '/' (by decide), hne '?' (by decide), hne '#' (by decide),
      hne '@' (by decide)]

theorem Bare.splits (h : Bare host) (port : UInt16) :
    Splits (endpointOf host port) (host.toList ++ portPart port) [] where
  whole := by rw [toList_endpointOf, List.append_nil]
  inside x hx := by
    obtain hx | hx := List.mem_append.mp hx
    · exact h x hx
    · exact (endsAuthority_of_mem_portPart hx).1
  boundary x hx := by cases hx

theorem Cut.splits (h : Cut host front back) (port : UInt16) :
    Splits (endpointOf host port) front (back ++ portPart port) where
  whole := by rw [toList_endpointOf, h.whole, List.append_assoc]
  inside := h.inside
  boundary x hx := by
    obtain ⟨y, hy, hends⟩ := h.boundary
    rw [List.head?_append, hy, Option.some_or, Option.some_inj] at hx
    exact hx ▸ hends

/-! ### User information -/

/-- What stands in an authority behind user information. -/
def behindUser (authority : List Char) : List Char :=
  (authority.reverse.takeWhile (· != '@')).reverse

theorem length_behindUser_le (authority : List Char) :
    (behindUser authority).length ≤ authority.length := by
  have h := (List.takeWhile_sublist (l := authority.reverse) (· != '@')).length_le
  simpa [behindUser] using h

theorem behindUser_eq_self_iff : behindUser authority = authority ↔ '@' ∉ authority := by
  rw [behindUser, List.reverse_eq_iff, List.takeWhile_eq_self_iff]
  simp only [List.mem_reverse, bne_iff_ne]
  exact ⟨fun h hmem => h _ hmem rfl, fun h x hx hat => h (hat ▸ hx)⟩

/-! ### What a binding leads to -/

namespace Channel

variable {c : Channel}

theorem init_of_ok {e : Endpoint} (h : Endpoint.ofText (endpointOf host port) = .ok e) :
    c.init host port = (⟨some e⟩, .ok ()) := by
  simp only [init, h]

theorem init_of_error {fault : EndpointFault}
    (h : Endpoint.ofText (endpointOf host port) = .error fault) :
    c.init host port = (c, .error (.invalidEndpoint (endpointOf host port) fault)) := by
  simp only [init, h]

theorem init_eq_ok_iff (h : Splits (endpointOf host port) authority rest) :
    (c.init host port).2 = .ok () ↔ (endpointOf host port).utf8ByteSize ≤ 65534 ∧
      checkAuthority authority = .ok () ∧ checkRest rest = .ok () := by
  cases htext : Endpoint.ofText (endpointOf host port) with
  | ok e =>
    obtain ⟨hsize, hauthority, hrest, -⟩ := h.ofText_eq_ok_iff.mp htext
    rw [init_of_ok htext]
    exact ⟨fun _ => ⟨hsize, hauthority, hrest⟩, fun _ => rfl⟩
  | error fault =>
    rw [init_of_error htext]
    refine ⟨nofun, fun ⟨hsize, hauthority, hrest⟩ => ?_⟩
    rw [h.ofText_eq_ok_iff.mpr ⟨hsize, hauthority, hrest, rfl⟩] at htext
    cases htext

theorem init_bound (h : Splits (endpointOf host port) authority rest)
    (hok : (c.init host port).2 = .ok ()) :
    (c.init host port).1.bound = some ⟨endpointOf host port, authority⟩ := by
  obtain ⟨hsize, hauthority, hrest⟩ := (init_eq_ok_iff h).mp hok
  rw [init_of_ok (h.ofText_eq_ok_iff.mpr ⟨hsize, hauthority, hrest, rfl⟩)]

end Channel

/-- A channel that takes a host and a port is bound to the authority that the grammar finds in their
endpoint. That is the host and the port exactly if no authority ends in the host, and behind user
information it is if there is no `@` either. A host in which the authority ends is taken exactly if
what is in front of that is an authority and what is behind it, with the port, is a path, a query
or a fragment. What is not taken is refused as it stands, and leaves the channel as it was. -/
theorem authority_of_binding (c : Channel) (host : String) (port : UInt16) :
    let asked := host.toList ++ ':' :: Text.decimal port.toNat
    let text := endpointOf host port
    ((c.init host port).2 = .ok () → ∃ e rest, (c.init host port).1.bound = some e ∧ e.text = text ∧
      Splits e.text e.authority rest ∧
      (e.authority = asked ↔ Bare host) ∧
      (behindUser e.authority = asked ↔ Bare host ∧ '@' ∉ host.toList)) ∧
    (∀ front back, Cut host front back →
      ((c.init host port).2 = .ok () ↔ text.utf8ByteSize ≤ 65534 ∧ checkAuthority front = .ok () ∧
        checkRest (back ++ ':' :: Text.decimal port.toNat) = .ok ())) ∧
    ((c.init host port).2 ≠ .ok () →
      ∃ fault, c.init host port = (c, .error (.invalidEndpoint text fault))) := by
  intro asked text
  refine ⟨fun hok => ?_, fun front back hcut => Channel.init_eq_ok_iff (hcut.splits port),
    fun hfails => ?_⟩
  · obtain hbare | ⟨front, back, hcut⟩ := bare_or_cut host
    · refine ⟨⟨text, asked⟩, [], Channel.init_bound (hbare.splits port) hok, rfl,
        hbare.splits port, ⟨fun _ => hbare, fun _ => rfl⟩, ?_⟩
      have hport : '@' ∉ portPart port := fun h => (endsAuthority_of_mem_portPart h).2 rfl
      have hasked : '@' ∉ asked ↔ '@' ∉ host.toList := by
        change '@' ∉ host.toList ++ portPart port ↔ _
        simp [hport]
      rw [behindUser_eq_self_iff, hasked]
      exact ⟨fun h => ⟨hbare, h⟩, fun h => h.2⟩
    · have hshort : front.length < asked.length := by
        simp [asked, hcut.whole]
      refine ⟨⟨text, front⟩, _, Channel.init_bound (hcut.splits port) hok, rfl, hcut.splits port,
        ⟨fun h => ?_, fun h => absurd h hcut.not_bare⟩,
        ⟨fun h => ?_, fun h => absurd h.1 hcut.not_bare⟩⟩
      · exact absurd (congrArg List.length h) (Nat.ne_of_lt hshort)
      · have hle := length_behindUser_le front
        exact absurd (congrArg List.length h) (Nat.ne_of_lt (Nat.lt_of_le_of_lt hle hshort))
  · cases htext : Endpoint.ofText text with
    | ok e => exact absurd (congrArg Prod.snd (Channel.init_of_ok htext)) hfails
    | error fault => exact ⟨fault, Channel.init_of_error htext⟩

/-- A host with a colon and a slash in it: the port that was asked for has gone into the path, and
the connection would be made to another one. -/
theorem slash_leads_elsewhere :
    let bound := ({} : Channel).init "localhost:1/" 7000
    bound.2 = .ok () ∧
      bound.1.bound = some ⟨"http://localhost:1/:7000", "localhost:1".toList⟩ ∧
      "localhost:1".toList ≠ "localhost:1/".toList ++ ':' :: Text.decimal 7000 := by
  decide +kernel

/-- An address in brackets behind a user. -/
theorem user_passed_over :
    let bound := ({} : Channel).init "root@[::1]" 7000
    bound.2 = .ok () ∧ ∃ e : Endpoint, bound.1.bound = some e ∧
      e.authority = "root@[::1]:7000".toList ∧
      behindUser e.authority ≠ "root@[::1]:7000".toList := by
  intro bound
  have hok : bound.2 = .ok () := by decide +kernel
  have hall : ("root@[::1]".toList.all fun x => !endsAuthority x) = true := by decide +kernel
  have hbare : Bare "root@[::1]" := fun x hx => by simpa using List.all_eq_true.mp hall x hx
  have hasked : "root@[::1]".toList ++ ':' :: Text.decimal (7000 : UInt16).toNat =
      "root@[::1]:7000".toList := by decide +kernel
  obtain ⟨hbound, -, -⟩ := authority_of_binding {} "root@[::1]" 7000
  obtain ⟨e, -, he, -, -, hauthority, huser⟩ := hbound hok
  rw [hasked] at hauthority huser
  refine ⟨hok, e, he, hauthority.mpr hbare, fun h => ?_⟩
  exact (huser.mp h).2 (by decide +kernel)

end Vigil.Link
