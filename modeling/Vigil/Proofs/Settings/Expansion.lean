import Vigil.Proofs.Files.Names
import Vigil.Settings

/-! Where a configured path leads that begins with a tilde: to the user's directory and on from
there, unless a second slash follows the first. -/
namespace Vigil.Path

/-- What a path begins with that is no name: the root, or a point. -/
def lead (path : String) : List String :=
  if isAbsolute path then ["/"] else if (words path).head? = some "." then ["."] else []

/-- The components of a path. Slashes in a row are one, and a point counts only in front. -/
def components (path : String) : List String := lead path ++ names path

/-- The path lies under `home`, and has the names of `rest` beyond it. -/
def Extends (path home rest : String) : Prop :=
  components home <+: components path ∧ names path = names home ++ names rest

variable {path home rest : String}

/-! ### Components -/

theorem length_lead_le (path : String) : (lead path).length ≤ 1 := by
  unfold lead
  split
  · rfl
  · split <;> simp

theorem slash_notMem_names (path : String) : "/" ∉ names path := fun h =>
  (isWord_of_mem_names h).2 (by simp)

theorem components_of_isAbsolute (h : isAbsolute path = true) :
    components path = "/" :: names path := by
  rw [components, lead, if_pos h, List.singleton_append]

theorem words_ne_nil (hne : path ≠ "") (h : isAbsolute path = false) : words path ≠ [] := by
  cases hpath : path.toList with
  | nil => exact absurd (String.toList_eq_nil_iff.mp hpath) hne
  | cons c l =>
    have hc : ¬c = '/' := by simpa [isAbsolute, hpath] using h
    obtain ⟨piece, pieces, hl⟩ := List.exists_cons_of_ne_nil (splitAt_ne_nil '/' l)
    simp [words, hpath, splitAt, hc, hl]

/-! ### Paths that are put together -/

theorem join_of_isAbsolute (h : isAbsolute rest = true) : join home rest = rest := by
  unfold isAbsolute at h
  rw [join, if_pos h]

theorem join_of_not_isAbsolute (h : isAbsolute rest = false) :
    join home rest = if home.isEmpty || endsInSlash home then home ++ rest
      else home ++ "/" ++ rest := by
  unfold isAbsolute at h
  rw [join, if_neg (by simp [h]), endsInSlash]

theorem exists_append_of_endsInSlash (h : endsInSlash path = true) :
    ∃ front, path = front ++ "/" := by
  obtain ⟨front, hfront⟩ := List.getLast?_eq_some_iff.mp (beq_iff_eq.mp h)
  refine ⟨String.ofList front, ?_⟩
  rw [← String.toList_inj, hfront]
  simp

theorem words_append_of_endsInSlash (h : endsInSlash home = true) (rest : String) :
    words (home ++ rest) = words home ++ words rest := by
  obtain ⟨front, rfl⟩ := exists_append_of_endsInSlash h
  have hfront : words (front ++ "/") = words front := by
    simpa [words, splitAt] using words_append front ""
  rw [words_append, hfront]

theorem words_join (h : isAbsolute rest = false) :
    words (join home rest) = words home ++ words rest := by
  rw [join_of_not_isAbsolute h]
  split
  · next hseparated =>
    obtain hempty | hslash := Bool.or_eq_true_iff.mp hseparated
    · rw [String.isEmpty_iff.mp hempty]
      simp [words, splitAt]
    · exact words_append_of_endsInSlash hslash rest
  · exact words_append home rest

theorem names_join (h : isAbsolute rest = false) :
    names (join home rest) = names home ++ names rest := by
  rw [names, words_join h, List.filter_append, names, names]

theorem exists_append_of_join (home : String) (h : isAbsolute rest = false) :
    ∃ back, join home rest = home ++ back := by
  rw [join_of_not_isAbsolute h]
  split
  · exact ⟨rest, rfl⟩
  · exact ⟨"/" ++ rest, by rw [String.append_assoc]⟩

/-- What a path begins with stays in front when something is put behind it. -/
theorem lead_join (hhome : home ≠ "") (h : isAbsolute rest = false) :
    lead (join home rest) = lead home := by
  obtain ⟨back, hback⟩ := exists_append_of_join home h
  have hroot : isAbsolute (join home rest) = isAbsolute home := by
    obtain ⟨c, l, hl⟩ := List.exists_cons_of_ne_nil (mt String.toList_eq_nil_iff.mp hhome)
    simp [isAbsolute, hback, hl]
  rw [lead, lead, hroot]
  cases habs : isAbsolute home with
  | true => rfl
  | false =>
    obtain ⟨word, ws, hwords⟩ := List.exists_cons_of_ne_nil (words_ne_nil hhome habs)
    simp [words_join h, hwords]

theorem extends_join (h : isAbsolute rest = false) : Extends (join home rest) home rest := by
  refine ⟨?_, names_join h⟩
  by_cases hhome : home = ""
  · rw [hhome]
    exact List.nil_prefix
  · rw [components, components, lead_join hhome h, names_join h, ← List.append_assoc]
    exact List.prefix_append _ _

/-- What stands at the root lies under what is the root itself, or nothing at all. -/
theorem extends_of_isAbsolute_iff (h : isAbsolute rest = true) :
    Extends rest home rest ↔ components home <+: ["/"] := by
  rw [Extends, components_of_isAbsolute h]
  constructor
  · rintro ⟨hunder, hnames⟩
    have hnone : names home = [] := List.self_eq_append_left.mp hnames
    have hlead : components home = lead home := by rw [components, hnone, List.append_nil]
    rw [hlead] at hunder ⊢
    exact List.prefix_of_prefix_length_le hunder (List.prefix_append ["/"] _) (length_lead_le home)
  · intro hroot
    have hnone : names home = [] := by
      refine List.eq_nil_iff_forall_not_mem.mpr fun name hname => ?_
      have hmem := hroot.subset (List.mem_append_right (lead home) hname)
      exact slash_notMem_names home (List.mem_singleton.mp hmem ▸ hname)
    exact ⟨hroot.trans (List.prefix_append ["/"] _), by rw [hnone, List.nil_append]⟩

end Vigil.Path

namespace Vigil

/-- A text that asks for the user's directory, and what it asks for there. -/
def Home.Asks (text rest : String) : Prop := text = "~" ∧ rest = "" ∨ text = "~/" ++ rest

namespace Home

variable {h : Home} {home text rest : String}

theorem expand_of_asks (hhome : h.home = some home) (ht : Asks text rest) :
    h.expand text = Path.join home rest := by
  obtain ⟨rfl, rfl⟩ | rfl := ht
  · rw [expand, hhome]
    rfl
  · simp [expand, hhome]

theorem Asks.ne_empty (ht : Asks text rest) : text ≠ "" := by
  obtain ⟨rfl, -⟩ | rfl := ht <;> simp

end Home

theorem Text.isBlank_of_trimmed_ne {s : String} (h : trimmed s ≠ "") : isBlank s = false := by
  rw [← Bool.not_eq_true]
  intro hblank
  rw [trimmed, trim_eq_nil_of_all hblank] at h
  exact h rfl

namespace Settings

open Vigil.Path

/-- Any value that asks for the user's directory gives one path, be it that of the record or of the
program. It is the user's directory followed by the names asked for exactly if these do not begin
with a slash, or the user's directory is nothing but the root or an empty text; else they are taken
from the root, and lie under the user's directory only if they lead there themselves. -/
theorem expanded_path {h : Home} {home value rest : String} (hhome : h.home = some home)
    (ht : Home.Asks (Text.trimmed value) rest) : ∃ path,
    (∀ s : Settings, (s.descriptorPath = value → s.recordPath h = path) ∧
      (s.daemonBinary = value → s.binaryPath h = some path)) ∧
    (Extends path home rest ↔ isAbsolute rest = false ∨ components home <+: ["/"]) ∧
    (components home <+: components path ↔
      isAbsolute rest = false ∨ components home <+: components rest) := by
  have hexpand := Home.expand_of_asks hhome ht
  have hblank : Text.isBlank value = false := Text.isBlank_of_trimmed_ne ht.ne_empty
  refine ⟨join home rest, fun s => ⟨?_, ?_⟩, ?_⟩
  · rintro rfl
    simp [recordPath, hblank, hexpand]
  · rintro rfl
    simp [binaryPath, hblank, hexpand]
  · cases hrest : isAbsolute rest with
    | false =>
      have hextends : Extends (join home rest) home rest := extends_join hrest
      simp [hextends, hextends.1]
    | true =>
      rw [join_of_isAbsolute hrest, extends_of_isAbsolute_iff hrest]
      simp

/-- Points and repeated slashes behind the tilde's own. -/
theorem dotted_rest_under_home :
    let s : Settings := { descriptorPath := " ~/./wf//../daemon.yaml\n", daemonBinary := "~" }
    let h : Home := { home := some "/home/u/" }
    Extends (s.recordPath h) "/home/u/" "./wf//../daemon.yaml" ∧
      components (s.recordPath h) = ["/", "home", "u", "wf", "..", "daemon.yaml"] ∧
      ∃ path, s.binaryPath h = some path ∧ Extends path "/home/u/" "" := by
  intro s h
  have hrecord : Home.Asks (Text.trimmed s.descriptorPath) "./wf//../daemon.yaml" :=
    .inr (by decide +kernel)
  have hbinary : Home.Asks (Text.trimmed s.daemonBinary) "" := .inl ⟨by decide +kernel, rfl⟩
  obtain ⟨path, hpath, hextends, -⟩ := expanded_path (h := h) rfl hrecord
  obtain ⟨path', hpath', hextends', -⟩ := expanded_path (h := h) rfl hbinary
  refine ⟨?_, by decide +kernel, path', (hpath' s).2 rfl, hextends'.mpr (.inl rfl)⟩
  rw [(hpath s).1 rfl]
  exact hextends.mpr (.inl (by decide +kernel))

/-- A second slash leads away from the user's directory, to the root. -/
theorem doubled_slash_leaves_home :
    let s : Settings := { descriptorPath := "~//etc/daemon.yaml" }
    let h : Home := { home := some "/home/u" }
    Home.Asks (Text.trimmed s.descriptorPath) "/etc/daemon.yaml" ∧
      s.recordPath h = "/etc/daemon.yaml" ∧
      ¬components "/home/u" <+: components (s.recordPath h) := by
  refine ⟨.inr (by decide +kernel), by decide +kernel, by decide +kernel⟩

end Settings

end Vigil
