import Mathlib.Data.List.Basic
import Mathlib.Data.List.TakeWhile
import Vigil.Files.Path

/-! The words of a path are what was put between its slashes, also where the path was put together
from names, and with another extension a path keeps all of them but the last. -/
namespace Vigil.Path

/-! ### Pieces between separators -/

theorem splitAt_of_notMem {c : Char} {l : List Char} (h : c ∉ l) : splitAt c l = [l] := by
  induction l with
  | nil => rfl
  | cons x l ih =>
    rw [List.mem_cons, not_or] at h
    simp [splitAt, Ne.symm h.1, ih h.2]

theorem splitAt_ne_nil (c : Char) (l : List Char) : splitAt c l ≠ [] := by
  cases l with
  | nil => simp [splitAt]
  | cons x l =>
    unfold splitAt
    split
    · simp
    · split <;> simp

theorem splitAt_append (c : Char) (l r : List Char) :
    splitAt c (l ++ c :: r) = splitAt c l ++ splitAt c r := by
  induction l with
  | nil => simp [splitAt]
  | cons x l ih =>
    by_cases hx : x = c
    · simp [splitAt, hx, ih]
    · obtain ⟨piece, pieces, hl⟩ := List.exists_cons_of_ne_nil (splitAt_ne_nil c l)
      simp [splitAt, hx, ih, hl]

theorem notMem_of_mem_splitAt {c : Char} {l piece : List Char} (h : piece ∈ splitAt c l) :
    c ∉ piece := by
  induction l generalizing piece with
  | nil => simp_all [splitAt]
  | cons x l ih =>
    unfold splitAt at h
    split at h
    · obtain rfl | h := List.mem_cons.mp h
      · exact List.not_mem_nil
      · exact ih h
    · rename_i hx
      have hx : c ≠ x := fun e => hx (by simp [e])
      split at h
      · simp_all
      · rename_i first rest hsplit
        obtain rfl | h := List.mem_cons.mp h
        · rw [List.mem_cons, not_or]
          exact ⟨hx, ih (hsplit ▸ List.mem_cons_self)⟩
        · exact ih (hsplit ▸ List.mem_cons_of_mem _ h)

/-! ### Words -/

/-- What can stand between two slashes. -/
def IsWord (name : String) : Prop := name ≠ "" ∧ '/' ∉ name.toList

theorem isWord_of_mem_words {path name : String} (h : name ∈ words path) : IsWord name := by
  obtain ⟨hpiece, hne⟩ := List.mem_filter.mp h
  obtain ⟨piece, hmem, rfl⟩ := List.mem_map.mp hpiece
  refine ⟨by simpa using hne, ?_⟩
  rw [String.toList_ofList]
  exact notMem_of_mem_splitAt hmem

theorem isWord_of_mem_names {path name : String} (h : name ∈ names path) : IsWord name :=
  isWord_of_mem_words (List.mem_filter.mp h).1

theorem words_of_isWord {name : String} (h : IsWord name) : words name = [name] := by
  simp [words, splitAt_of_notMem h.2, h.1]

theorem words_append (left right : String) :
    words (left ++ "/" ++ right) = words left ++ words right := by
  simp [words, splitAt_append]

theorem words_slash_append (path : String) : words ("/" ++ path) = words path := by
  simp [words, splitAt]

theorem words_intercalate {ns : List String} (h : ∀ n ∈ ns, IsWord n) :
    words ("/".intercalate ns) = ns := by
  induction ns with
  | nil => rfl
  | cons n ns ih =>
    cases ns with
    | nil => simpa using words_of_isWord (h n List.mem_cons_self)
    | cons n' ns =>
      rw [String.intercalate_cons_cons, words_append, words_of_isWord (h n List.mem_cons_self),
        ih fun m hm => h m (List.mem_cons_of_mem _ hm), List.singleton_append]

@[simp] theorem words_ofNames {ns : List String} (h : ∀ n ∈ ns, IsWord n) :
    words (ofNames ns) = ns := by
  rw [ofNames, words_slash_append, words_intercalate h]

theorem endsInSlash_append {name : String} (h : IsWord name) (path : String) :
    endsInSlash (path ++ name) = false := by
  have hne : name.toList ≠ [] := by simpa using h.1
  rw [endsInSlash, String.toList_append, List.getLast?_append_of_ne_nil _ hne, beq_eq_false_iff_ne]
  exact fun hlast => h.2 (List.mem_of_getLast? hlast)

theorem endsInSlash_intercalate (ns : List String) {name : String} (h : IsWord name) :
    endsInSlash ("/".intercalate (ns ++ [name])) = false := by
  cases ns with
  | nil => simpa using endsInSlash_append h ""
  | cons n ns =>
    rw [String.intercalate_append_of_ne_nil (List.cons_ne_nil _ _) (List.cons_ne_nil _ _),
      String.intercalate_singleton, endsInSlash_append h]

theorem endsInSlash_ofNames (ns : List String) {name : String} (h : IsWord name) :
    endsInSlash (ofNames (ns ++ [name])) = false := by
  cases ns with
  | nil => simpa [ofNames] using endsInSlash_append h "/"
  | cons n ns =>
    rw [ofNames, String.intercalate_append_of_ne_nil (List.cons_ne_nil _ _) (List.cons_ne_nil _ _),
      String.intercalate_singleton, ← String.append_assoc, endsInSlash_append h]

/-- The path of the first names is what the path of all of them begins with. -/
theorem ofNames_append (front back : List String) :
    ∃ rest, ofNames (front ++ back) = ofNames front ++ rest := by
  cases front with
  | nil => exact ⟨"/".intercalate back, by simp [ofNames]⟩
  | cons n front =>
    cases back with
    | nil => exact ⟨"", by simp⟩
    | cons m back =>
      refine ⟨"/" ++ "/".intercalate (m :: back), ?_⟩
      rw [ofNames, String.intercalate_append_of_ne_nil (List.cons_ne_nil _ _)
        (List.cons_ne_nil _ _)]
      simp [ofNames, String.append_assoc]

/-! ### Extensions -/

theorem names_of_words {path name : String} {above : List String}
    (h : words path = above ++ [name]) (hname : name ≠ ".") :
    names path = above.filter (· != ".") ++ [name] := by
  simp [names, h, hname]

/-- The text from its last `c` on. -/
theorem takeWhile_reverse_append {c : Char} {after : List Char} (h : c ∉ after)
    (before : List Char) :
    ((before ++ c :: after).reverse.takeWhile (· != c)).reverse = after := by
  have hall : ∀ x ∈ after.reverse, (x != c) = true := by
    simpa using fun x hx (e : x = c) => h (e ▸ hx)
  simp [List.takeWhile_append_of_pos hall]

/-- A name without an extension is its own stem. -/
theorem stemAndExtension_cases (name : String) : stemAndExtension name = (name, none) ∨
    ∃ before after, before ≠ [] ∧ '.' ∉ after ∧ name.toList = before ++ '.' :: after ∧
      stemAndExtension name = (String.ofList before, some (String.ofList after)) := by
  by_cases hpoint : '.' ∈ name.toList
  · obtain ⟨after, before, hname, hafter⟩ :=
      List.eq_append_cons_of_mem (List.mem_reverse.mpr hpoint)
    have hname : name.toList = before.reverse ++ '.' :: after.reverse := by
      rw [← List.reverse_inj, hname]
      simp
    rw [← List.mem_reverse] at hafter
    by_cases hstem : name = ".." ∨ before = []
    · left
      simp only [stemAndExtension, hname, takeWhile_reverse_append hafter]
      obtain rfl | rfl := hstem <;> simp
    · rw [not_or] at hstem
      refine .inr ⟨_, _, by simpa using hstem.2, hafter, hname, ?_⟩
      have hlength : (before.reverse ++ '.' :: after.reverse).length - after.reverse.length - 1 =
          before.reverse.length := by
        simp
        omega
      simp only [stemAndExtension, hname, takeWhile_reverse_append hafter, hlength, List.take_left]
      simp [hstem]
      omega
  · left
    have hall : name.toList.reverse.takeWhile (· != '.') = name.toList.reverse := by
      rw [List.takeWhile_eq_self_iff]
      simpa using fun x hx (e : x = '.') => hpoint (e ▸ hx)
    simp [stemAndExtension, hall]

theorem isWord_stem {name : String} (h : IsWord name) : IsWord (stemAndExtension name).1 := by
  obtain he | ⟨before, after, hne, -, hname, he⟩ := stemAndExtension_cases name
  · rwa [he]
  · rw [he]
    refine ⟨by simpa using hne, fun hslash => h.2 ?_⟩
    rw [String.toList_ofList] at hslash
    exact hname ▸ List.mem_append_left _ hslash

/-- With an extension that has a point in it no name stays what it was. -/
theorem stem_append_ne {name extension : String} (hext : '.' ∈ extension.toList) :
    (stemAndExtension name).1 ++ "." ++ extension ≠ name := by
  obtain he | ⟨before, after, -, hafter, hname, he⟩ := stemAndExtension_cases name
  · rw [he]
    intro e
    have hlength := congrArg (·.toList.length) e
    simp at hlength
  · rw [he]
    intro e
    have hlist := congrArg String.toList e
    rw [hname] at hlist
    simp at hlist
    exact hafter (hlist ▸ hext)

/-- The path with another extension differs from the path in its last name alone. -/
theorem withExtension_of_name {path name : String} {above : List String} (extension : String)
    (hnames : names path = above ++ [name]) (hname : name ≠ "..")
    (hext : '/' ∉ extension.toList) : ∃ body, ('.' ∈ extension.toList → body ≠ name) ∧
      words (withExtension path extension) = above ++ [body] ∧
      endsInSlash (withExtension path extension) = false := by
  have hwords (n : String) (h : n ∈ above ++ [name]) : IsWord n :=
    isWord_of_mem_names (hnames ▸ h)
  have hstem := isWord_stem (hwords name (by simp))
  have hassembled (body : String) (h : IsWord body) :
      words ((if isAbsolute path then ofNames else "/".intercalate) (above ++ [body])) =
          above ++ [body] ∧
        endsInSlash ((if isAbsolute path then ofNames else "/".intercalate) (above ++ [body])) =
          false := by
    have hall : ∀ n ∈ above ++ [body], IsWord n := by
      intro n hn
      obtain hn | hn := List.mem_append.mp hn
      · exact hwords n (by simp [hn])
      · rwa [List.mem_singleton.mp hn]
    split
    · exact ⟨words_ofNames hall, endsInSlash_ofNames above h⟩
    · exact ⟨words_intercalate hall, endsInSlash_intercalate above h⟩
  -- two points alone are what becomes of a name such as `..x`
  have hbody (up : Bool) :
      let body := if up then ".." else (stemAndExtension name).1 ++ "." ++ extension
      IsWord body ∧ ('.' ∈ extension.toList → body ≠ name) := by
    cases up with
    | true => exact ⟨by simp [IsWord], fun _ => hname.symm⟩
    | false =>
      refine ⟨⟨by simp, ?_⟩, stem_append_ne⟩
      simpa [hstem.2] using hext
  have hlast : (names path).getLast? = some name := by simp [hnames]
  unfold withExtension
  rw [hlast]
  split
  · simp_all
  · simp_all
  · rename_i last _ hsome
    cases hsome
    simp only [hnames, List.dropLast_concat]
    obtain ⟨hword, hdiff⟩ := hbody _
    exact ⟨_, hdiff, hassembled _ hword⟩

end Vigil.Path
