import Mathlib
import Vigil.Settings

/-! Each setting stands for itself: what is put into one is found there, and the others stay what
they are. -/
namespace Vigil.Settings

variable {s s' : Settings} {i j : Item} {v : Json.Value}

/-- The values a setting can take. -/
def Slot.Accepts (slot : Slot) (v : Json.Value) : Prop :=
  match slot, v with
  | .text _ _, .str _ => True
  | .number limit _ _, .int n => 0 ≤ n ∧ n ≤ limit
  | _, _ => False

instance (slot : Slot) (v : Json.Value) : Decidable (slot.Accepts v) := by
  unfold Slot.Accepts
  split <;> infer_instance

theorem accepts_text_iff {get : Settings → String} {set : Settings → String → Settings} :
    Slot.Accepts (.text get set) v ↔ ∃ t : String, v = .str t := by
  cases v <;> simp [Slot.Accepts]

theorem accepts_number_iff {limit : Nat} {get : Settings → Nat}
    {set : Settings → Nat → Settings} :
    Slot.Accepts (.number limit get set) v ↔ ∃ n : Nat, n ≤ limit ∧ v = .int n := by
  cases v with
  | int n =>
    simp only [Slot.Accepts, Json.Value.int.injEq]
    refine ⟨fun ⟨hpos, hle⟩ => ⟨n.toNat, by omega, by omega⟩, ?_⟩
    rintro ⟨m, hm, rfl⟩
    omega
  | _ => simp [Slot.Accepts]

theorem Slot.setJson?_of_not_accepts {slot : Slot} (h : ¬slot.Accepts v) :
    slot.setJson? s v = none := by
  unfold Slot.setJson?
  split
  · exact absurd trivial h
  · next limit get set n =>
    rw [if_neg]
    simpa [Slot.Accepts] using h
  · rfl

/-- A setting that holds what it is given, and changes no other. -/
structure Item.Lawful (i : Item) : Prop where
  holds : ∀ s, i.slot.Accepts (i.slot.toJson s)
  put : ∀ ⦃s v⦄, i.slot.Accepts v →
    ∃ s', i.slot.setJson? s v = some s' ∧ i.slot.toJson s' = v ∧
      ∀ j ∈ items, j.key ≠ i.key → j.slot.toJson s' = j.slot.toJson s

theorem lawful_text {key envName : String} {get : Settings → String}
    {set : Settings → String → Settings} (hget : ∀ s t, get (set s t) = t)
    (hapart : ∀ j ∈ items, j.key ≠ key → ∀ s t, j.slot.toJson (set s t) = j.slot.toJson s) :
    Item.Lawful ⟨key, envName, .text get set⟩ where
  holds s := accepts_text_iff.mpr ⟨get s, rfl⟩
  put := by
    intro s v hv
    obtain ⟨t, rfl⟩ := accepts_text_iff.mp hv
    exact ⟨set s t, rfl, congrArg Json.Value.str (hget s t), fun j hj hne => hapart j hj hne s t⟩

theorem lawful_number {key envName : String} {limit : Nat} {get : Settings → Nat}
    {set : Settings → Nat → Settings} (hle : ∀ s, get s ≤ limit)
    (hget : ∀ s n, n ≤ limit → get (set s n) = n)
    (hapart : ∀ j ∈ items, j.key ≠ key → ∀ s n, j.slot.toJson (set s n) = j.slot.toJson s) :
    Item.Lawful ⟨key, envName, .number limit get set⟩ where
  holds s := accepts_number_iff.mpr ⟨get s, hle s, rfl⟩
  put := by
    intro s v hv
    obtain ⟨n, hn, rfl⟩ := accepts_number_iff.mp hv
    refine ⟨set s n, by simp [Slot.setJson?, hn], ?_, fun j hj hne => hapart j hj hne s n⟩
    exact congrArg (fun m : Nat => Json.Value.int m) (hget s n hn)

theorem toNat_u64 {n : Nat} (h : n ≤ u64Max) : n.toUInt64.toNat = n :=
  UInt64.toNat_ofNat_of_lt (Nat.lt_succ_of_le h)

theorem toNat_u32 {n : Nat} (h : n ≤ u32Max) : n.toUInt32.toNat = n :=
  UInt32.toNat_ofNat_of_lt (Nat.lt_succ_of_le h)

theorem toNat_le_u64 (n : UInt64) : n.toNat ≤ u64Max := Nat.le_of_lt_succ n.toNat_lt

theorem toNat_le_u32 (n : UInt32) : n.toNat ≤ u32Max := Nat.le_of_lt_succ n.toNat_lt

theorem items_lawful (h : i ∈ items) : i.Lawful := by
  simp only [items, List.mem_cons, List.not_mem_nil, or_false] at h
  obtain rfl | rfl | rfl | rfl | rfl | rfl | rfl | rfl | rfl | rfl | rfl := h
  · refine lawful_text (fun _ _ => rfl) ?_
    simp [items, Slot.toJson]
  · refine lawful_text (fun _ _ => rfl) ?_
    simp [items, Slot.toJson]
  · refine lawful_number (fun s => toNat_le_u64 _) (fun _ _ h => toNat_u64 h) ?_
    simp [items, Slot.toJson]
  · refine lawful_number (fun s => toNat_le_u32 _) (fun _ _ h => toNat_u32 h) ?_
    simp [items, Slot.toJson]
  all_goals
    refine lawful_number (fun s => toNat_le_u64 _) (fun _ _ h => toNat_u64 h) ?_
    simp [items, Slot.toJson]

/-- Settings are what they hold. -/
theorem ext_items (h : ∀ i ∈ items, i.slot.toJson s = i.slot.toJson s') : s = s' := by
  simp only [items, List.forall_mem_cons, Slot.toJson, Json.Value.str.injEq, Json.Value.int.injEq,
    Nat.cast_inj, UInt64.toNat_inj, UInt32.toNat_inj] at h
  cases s
  cases s'
  simp_all

theorem keys_nodup : (items.map (·.key)).Nodup := by decide

theorem items_inj (hi : i ∈ items) (hj : j ∈ items) (h : i.key = j.key) : i = j :=
  List.inj_on_of_nodup_map keys_nodup hi hj h

theorem find?_item (h : i ∈ items) : items.find? (fun j => j.key == i.key) = some i := by
  have hsome : (items.find? fun j => j.key == i.key).isSome :=
    List.find?_isSome.mpr ⟨i, h, by simp⟩
  obtain ⟨j, hj⟩ := Option.isSome_iff_exists.mp hsome
  have hkey : j.key = i.key := by simpa using List.find?_some hj
  rw [hj, items_inj (List.mem_of_find?_eq_some hj) h hkey]

end Vigil.Settings
