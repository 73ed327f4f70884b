import Mathlib
import Vigil.Json.Value

/-! Fields that are sorted: their keys ascend, and each key has the last value that was given for
it. -/
namespace Vigil.Json

variable {α : Type} {key : String} {v : α} {fs : List (String × α)}

/-! ### Fields found by their keys -/

theorem lookup_cons_ite (k : String) (v : α) (fs : List (String × α)) (key : String) :
    ((k, v) :: fs).lookup key = if key = k then some v else fs.lookup key := by
  by_cases h : key = k
  · simp [h]
  · have hne : (key == k) = false := beq_false_of_ne h
    simp [List.lookup_cons, hne, h]

theorem lookup_filter_keys (p : String → Bool) (fs : List (String × α)) (key : String) :
    (fs.filter fun f => p f.1).lookup key = if p key then fs.lookup key else none := by
  induction fs with
  | nil => simp
  | cons f fs ih =>
    obtain ⟨k, v⟩ := f
    by_cases hp : p k = true
    · rw [List.filter_cons_of_pos (by simpa using hp), lookup_cons_ite, lookup_cons_ite, ih]
      by_cases hkey : key = k <;> simp [hkey, hp]
    · rw [List.filter_cons_of_neg (by simpa using hp), lookup_cons_ite, ih]
      by_cases hkey : key = k <;> simp [hkey, hp]

theorem lookup_putField (k : String) (v : α) (fs : List (String × α)) (key : String) :
    (putField k v fs).lookup key = if key = k then some v else fs.lookup key := by
  induction fs with
  | nil => exact lookup_cons_ite k v [] key
  | cons f fs ih =>
    obtain ⟨k', v'⟩ := f
    rw [putField]
    by_cases hlt : k < k'
    · rw [if_pos hlt, lookup_cons_ite]
    · rw [if_neg hlt]
      by_cases heq : k = k'
      · rw [if_pos heq, lookup_cons_ite, lookup_cons_ite k' v', heq]
        by_cases hkey : key = k' <;> simp [hkey]
      · rw [if_neg heq, lookup_cons_ite, lookup_cons_ite k' v', ih]
        by_cases hkey : key = k' <;> simp [hkey, Ne.symm heq]

theorem sortFields_concat (fs : List (String × α)) (f : String × α) :
    sortFields (fs ++ [f]) = putField f.1 f.2 (sortFields fs) := by
  simp [sortFields]

theorem lookup_sortFields (fs : List (String × α)) (key : String) :
    (sortFields fs).lookup key = fs.reverse.lookup key := by
  induction fs using List.reverseRecOn with
  | nil => rfl
  | append_singleton fs f ih =>
    rw [sortFields_concat, lookup_putField, ih, List.reverse_concat, lookup_cons_ite]

/-! ### Ascending keys -/

/-- The keys ascend, so that none is there twice. -/
def Ascending (fs : List (String × α)) : Prop := fs.Pairwise fun f g => f.1 < g.1

theorem key_mem_putField {k : String} {f : String × α} (h : f ∈ putField k v fs) :
    f.1 = k ∨ f ∈ fs := by
  induction fs with
  | nil => exact .inl (congrArg Prod.fst (List.mem_singleton.mp h))
  | cons g fs ih =>
    rw [putField] at h
    split_ifs at h with hlt heq
    · obtain rfl | h := List.mem_cons.mp h
      · exact .inl rfl
      · exact .inr h
    · obtain rfl | h := List.mem_cons.mp h
      · exact .inl rfl
      · exact .inr (List.mem_cons_of_mem _ h)
    · obtain rfl | h := List.mem_cons.mp h
      · exact .inr List.mem_cons_self
      · exact (ih h).imp_right (List.mem_cons_of_mem _)

theorem Ascending.putField (h : Ascending fs) (k : String) (v : α) :
    Ascending (putField k v fs) := by
  induction fs with
  | nil => exact List.pairwise_singleton _ _
  | cons f fs ih =>
    obtain ⟨hhead, htail⟩ := List.pairwise_cons.mp h
    rw [Json.putField]
    split_ifs with hlt heq
    · refine List.pairwise_cons.mpr ⟨fun g hg => ?_, h⟩
      obtain rfl | hg := List.mem_cons.mp hg
      · exact hlt
      · exact hlt.trans (hhead g hg)
    · exact List.pairwise_cons.mpr ⟨fun g hg => heq ▸ hhead g hg, htail⟩
    · refine List.pairwise_cons.mpr ⟨fun g hg => ?_, ih htail⟩
      obtain hkey | hg := key_mem_putField hg
      · rw [hkey]
        exact lt_of_le_of_ne (not_lt.mp hlt) (Ne.symm heq)
      · exact hhead g hg

theorem ascending_sortFields (fs : List (String × α)) : Ascending (sortFields fs) := by
  induction fs using List.reverseRecOn with
  | nil => exact .nil
  | append_singleton fs f ih =>
    rw [sortFields_concat]
    exact ih.putField f.1 f.2

/-- Where no key is there twice, the fields are those that are found by their keys. -/
theorem Ascending.mem_iff (h : Ascending fs) : (key, v) ∈ fs ↔ fs.lookup key = some v := by
  induction fs with
  | nil => simp
  | cons f fs ih =>
    obtain ⟨k, v'⟩ := f
    obtain ⟨hhead, htail⟩ := List.pairwise_cons.mp h
    rw [List.mem_cons, lookup_cons_ite, Prod.mk.injEq]
    by_cases hkey : key = k
    · have hother : (k, v) ∉ fs := fun hmem => (hhead _ hmem).ne rfl
      simp [hkey, hother, eq_comm]
    · simp [hkey, ih htail]

theorem mem_sortFields_iff : (key, v) ∈ sortFields fs ↔ fs.reverse.lookup key = some v := by
  rw [(ascending_sortFields fs).mem_iff, lookup_sortFields]

end Vigil.Json
