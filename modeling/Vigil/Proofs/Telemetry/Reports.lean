import Mathlib.Data.List.Infix
import Vigil.Proofs.Files.Ways
import Vigil.Proofs.Json.Printed
import Vigil.Telemetry

/-! The reports of crashes: one is kept until another is made by the same process at the same
time. -/
namespace Vigil.Telemetry

open Files (Tree Place)

theorem decimalInt_injective : Function.Injective Text.decimalInt := by
  intro n m h
  have hn := Json.number?_decimalInt Json.stops_nil n
  rw [h, Json.number?_decimalInt Json.stops_nil m] at hn
  cases hn
  rfl

/-- The reports of one process are told apart by their times, and by nothing else. -/
theorem reportName_eq_iff {p p' : Report} {pid : Nat} :
    reportName p pid = reportName p' pid ↔ p.at_ = p'.at_ := by
  constructor
  · intro h
    apply decimalInt_injective
    have hchars := congrArg String.toList h
    simpa [reportName] using hchars
  · intro h
    rw [reportName, reportName, h]

namespace Recorder

variable {r : Recorder} {t s : Tree} {dir : Place} {pid : Nat} {c c' : Crash} {cs : List Crash}

def reportOf (r : Recorder) (c : Crash) : Report :=
  ⟨c.at_, r.app, r.version, r.session, c.message, c.location, c.backtrace⟩

def placeOf (r : Recorder) (dir : Place) (pid : Nat) (c : Crash) : Place :=
  reportsOf dir ++ [reportName (r.reportOf c) pid]

def textOf (r : Recorder) (c : Crash) : List UInt8 :=
  Utf8.encode (Json.pretty (r.reportOf c).toJson)

theorem placeOf_eq_iff : r.placeOf dir pid c = r.placeOf dir pid c' ↔ c.at_ = c'.at_ := by
  have hname : reportName (r.reportOf c) pid = reportName (r.reportOf c') pid ↔ c.at_ = c'.at_ :=
    reportName_eq_iff
  simpa [placeOf] using hname

theorem placeOf_beyond (r : Recorder) (dir : Place) (pid : Nat) (c : Crash) :
    ¬r.placeOf dir pid c <+: reportsOf dir :=
  Files.not_prefix_concat _ _

/-! ### One crash -/

/-- A report is written over what its place held, and nothing else changes but directories. -/
theorem get?_writeCrash (hon : r.crash = true) (hclear : t.Clear (reportsOf dir))
    (h : t.Writable (r.placeOf dir pid c)) (p : Place) : (r.writeCrash t dir pid c).get? p =
      if p = r.placeOf dir pid c then some (.file (r.textOf c))
      else if p <+: reportsOf dir then some .dir
      else t.get? p := by
  have hreported : r.writeCrash t dir pid c = writeReport t dir pid (r.reportOf c) := by
    simp [writeCrash, report?, hon, reportOf]
  obtain ⟨s, hmade, hget⟩ := hclear.makeDirs
  have hdir : s.get? (reportsOf dir) = some .dir := by rw [hget, if_pos (List.prefix_refl _)]
  have hwritable : s.Writable (r.placeOf dir pid c) := fun e he => by
    rw [hget, if_neg (r.placeOf_beyond dir pid c)] at he
    exact h e he
  have hwrite := Tree.write_concat hdir hwritable (r.textOf c)
  have hput : writeReport t dir pid (r.reportOf c) =
      s.put (r.placeOf dir pid c) (.file (r.textOf c)) := by
    simp only [writeReport, hmade, Files.Attempt.next, Files.Attempt.start]
    rw [← textOf, hwrite]
    rfl
  rw [hreported, hput, Tree.get?_put _ (by simp [placeOf]), hget]

/-! ### One after the other -/

def writeCrashes (r : Recorder) (t : Tree) (dir : Place) (pid : Nat) (cs : List Crash) : Tree :=
  cs.foldl (fun t c => r.writeCrash t dir pid c) t

/-- What stands in `s` after the crashes `cs` of a process that began with `t`: the reports that
none of the same time followed, and nothing else that is new but directories. -/
structure Reported (r : Recorder) (dir : Place) (pid : Nat) (t : Tree) (cs : List Crash)
    (s : Tree) : Prop where
  clear : s.Clear (reportsOf dir)
  kept : ∀ front c back, cs = front ++ c :: back → (∀ c' ∈ back, c'.at_ ≠ c.at_) →
    s.get? (r.placeOf dir pid c) = some (.file (r.textOf c))
  others : ∀ p, (∀ c ∈ cs, p ≠ r.placeOf dir pid c) →
    s.get? p = t.get? p ∨ t.get? p = none ∧ p <+: reportsOf dir ∧ s.get? p = some .dir

/-- The last of the crashes that were at one time. -/
theorem exists_last (h : ∃ c' ∈ cs, c'.at_ = c.at_) :
    ∃ front c' back, cs = front ++ c' :: back ∧ c'.at_ = c.at_ ∧ ∀ d ∈ back, d.at_ ≠ c'.at_ := by
  induction cs with
  | nil => simp at h
  | cons d rest ih =>
    by_cases hrest : ∃ c' ∈ rest, c'.at_ = c.at_
    · obtain ⟨front, c', back, rfl, hc', hback⟩ := ih hrest
      exact ⟨d :: front, c', back, rfl, hc', hback⟩
    · push Not at hrest
      obtain ⟨c', hmem, hc'⟩ := h
      obtain rfl | hin := List.mem_cons.mp hmem
      · exact ⟨[], c', rest, rfl, hc', fun d hd => hc' ▸ hrest d hd⟩
      · exact absurd hc' (hrest c' hin)

namespace Reported

theorem empty (hclear : t.Clear (reportsOf dir)) : Reported r dir pid t [] t :=
  ⟨hclear, fun front c back h => by simp at h, fun p _ => .inl rfl⟩

theorem writable (h : Reported r dir pid t cs s) (hfree : t.Writable (r.placeOf dir pid c)) :
    s.Writable (r.placeOf dir pid c) := by
  intro e he
  by_cases hsame : ∃ c' ∈ cs, c'.at_ = c.at_
  · obtain ⟨front, c', back, hcs, hc', hback⟩ := exists_last hsame
    have hkept := h.kept front c' back hcs hback
    rw [placeOf_eq_iff.mpr hc', he] at hkept
    cases hkept
    exact ⟨_, rfl⟩
  · push Not at hsame
    have hne : ∀ c' ∈ cs, r.placeOf dir pid c ≠ r.placeOf dir pid c' := fun c' hc' heq =>
      hsame c' hc' (placeOf_eq_iff.mp heq).symm
    obtain hold | ⟨-, hbelow, -⟩ := h.others _ hne
    · exact hfree e (hold ▸ he)
    · exact absurd hbelow (r.placeOf_beyond dir pid c)

theorem writeCrash (hon : r.crash = true) (h : Reported r dir pid t cs s)
    (hfree : t.Writable (r.placeOf dir pid c)) :
    Reported r dir pid t (cs ++ [c]) (r.writeCrash s dir pid c) := by
  have hget := get?_writeCrash hon h.clear (h.writable hfree)
  refine ⟨fun p hp => ?_, fun front d back hsplit hback => ?_, fun p hp => ?_⟩
  · have hne : p ≠ r.placeOf dir pid c := fun heq => r.placeOf_beyond dir pid c (heq ▸ hp)
    exact .inr (by rw [hget, if_neg hne, if_pos hp])
  · obtain rfl | ⟨back, last, rfl⟩ := back.eq_nil_or_concat
    · obtain ⟨-, hc⟩ := List.append_inj' hsplit rfl
      cases hc
      rw [hget, if_pos rfl]
    · have hassoc : cs ++ [c] = (front ++ d :: back) ++ [last] := by simpa using hsplit
      obtain ⟨rfl, hc⟩ := List.append_inj' hassoc rfl
      cases hc
      have hne : r.placeOf dir pid d ≠ r.placeOf dir pid c := fun heq =>
        hback c (by simp) (placeOf_eq_iff.mp heq).symm
      rw [hget, if_neg hne, if_neg (r.placeOf_beyond dir pid d)]
      exact h.kept front d back rfl fun c' hc' => hback c' (by simp [hc'])
  · have hne : p ≠ r.placeOf dir pid c := hp c (by simp)
    have hothers := h.others p fun c' hc' => hp c' (by simp [hc'])
    rw [hget, if_neg hne]
    split
    · next hbelow =>
      obtain hold | ⟨hnone, -⟩ := hothers
      · obtain hnone | hdir := h.clear p hbelow
        · exact .inr ⟨hold ▸ hnone, hbelow, rfl⟩
        · exact .inl (hold ▸ hdir.symm)
      · exact .inr ⟨hnone, hbelow, rfl⟩
    · exact hothers

end Reported

theorem reported_writeCrashes (hon : r.crash = true) (hclear : t.Clear (reportsOf dir))
    (hfree : ∀ c ∈ cs, t.Writable (r.placeOf dir pid c)) :
    Reported r dir pid t cs (r.writeCrashes t dir pid cs) := by
  induction cs using List.reverseRecOn with
  | nil => exact .empty hclear
  | append_singleton cs c ih =>
    have hbefore := ih fun c' hc' => hfree c' (by simp [hc'])
    rw [writeCrashes, List.foldl_concat]
    exact hbefore.writeCrash hon (hfree c (by simp))

/-- Where the reports can be written, a report is kept whole as long as none is made later at the
same time, and then its place holds one of those. Reports of different times have different places,
and nothing else changes but new directories. -/
theorem report_kept_until_same_time (t : Tree) (dir : Place) (pid : Nat) (cs : List Crash)
    (hon : r.crash = true) (hclear : t.Clear (reportsOf dir))
    (hfree : ∀ c ∈ cs, t.Writable (r.placeOf dir pid c)) :
    let s := r.writeCrashes t dir pid cs
    (∀ front c back, cs = front ++ c :: back →
      ((∀ c' ∈ back, c'.at_ ≠ c.at_) →
        s.get? (r.placeOf dir pid c) = some (.file (r.textOf c))) ∧
      ((∃ c' ∈ back, c'.at_ = c.at_) → ∃ c' ∈ back, c'.at_ = c.at_ ∧
        s.get? (r.placeOf dir pid c) = some (.file (r.textOf c')))) ∧
    (∀ c c', r.placeOf dir pid c = r.placeOf dir pid c' ↔ c.at_ = c'.at_) ∧
    ∀ p, (∀ c ∈ cs, p ≠ r.placeOf dir pid c) →
      s.get? p = t.get? p ∨ t.get? p = none ∧ p <+: reportsOf dir ∧ s.get? p = some .dir := by
  have h := reported_writeCrashes hon hclear hfree
  refine ⟨fun front c back hsplit => ⟨h.kept front c back hsplit, fun hsame => ?_⟩,
    fun c c' => placeOf_eq_iff, h.others⟩
  obtain ⟨between, c', rest, rfl, hc', hrest⟩ := exists_last hsame
  have hkept := h.kept (front ++ c :: between) c' rest (by simp [hsplit]) hrest
  exact ⟨c', by simp, hc', placeOf_eq_iff.mpr hc' ▸ hkept⟩

/-- A recorder of crashes, and what is known of three of them. -/
def watchful : Recorder := ⟨"shell", "1.0", "s", false, true⟩

def firstCrash : Crash := { at_ := 5, message := "first" }

def secondCrash : Crash := { at_ := 5, message := "second" }

def thirdCrash : Crash := { at_ := 6, message := "third" }

theorem third_report_kept :
    (watchful.crash = true ∧ ({} : Tree).Clear (reportsOf ["t"]) ∧
      ∀ c ∈ [firstCrash, thirdCrash], ({} : Tree).Writable (watchful.placeOf ["t"] 1 c)) ∧
    let s := watchful.writeCrashes {} ["t"] 1 [firstCrash, thirdCrash]
    s.get? (watchful.placeOf ["t"] 1 firstCrash) = some (.file (watchful.textOf firstCrash)) ∧
      s.get? (watchful.placeOf ["t"] 1 thirdCrash) = some (.file (watchful.textOf thirdCrash)) := by
  have hclear : ({} : Tree).Clear (reportsOf ["t"]) := Tree.clear_empty _
  have hfree : ∀ c ∈ [firstCrash, thirdCrash],
      ({} : Tree).Writable (watchful.placeOf ["t"] 1 c) := fun c _ =>
    Tree.writable_of_none (Tree.get?_empty (by simp [placeOf]))
  obtain ⟨hsplit, -⟩ :=
    report_kept_until_same_time (r := watchful) {} ["t"] 1 _ rfl hclear hfree
  exact ⟨⟨rfl, hclear, hfree⟩, (hsplit [] firstCrash [thirdCrash] rfl).1 (by decide),
    (hsplit [firstCrash] thirdCrash [] rfl).1 (by decide)⟩

/-- Of two crashes at one time the second alone has a report. -/
theorem simultaneous_report_lost :
    let s := watchful.writeCrashes {} ["t"] 1 [firstCrash, secondCrash]
    watchful.textOf firstCrash ≠ watchful.textOf secondCrash ∧
      s.get? (watchful.placeOf ["t"] 1 firstCrash) = some (.file (watchful.textOf secondCrash)) ∧
      ∀ name, s.get? (reportsOf ["t"] ++ [name]) ≠ none →
        reportsOf ["t"] ++ [name] = watchful.placeOf ["t"] 1 secondCrash := by
  intro s
  have hclear : ({} : Tree).Clear (reportsOf ["t"]) := Tree.clear_empty _
  have hnone (name : String) : ({} : Tree).get? (reportsOf ["t"] ++ [name]) = none :=
    Tree.get?_empty (by simp)
  have h : Reported watchful ["t"] 1 {} [firstCrash, secondCrash] s :=
    reported_writeCrashes rfl hclear fun c _ => Tree.writable_of_none (hnone _)
  have hplace : watchful.placeOf ["t"] 1 firstCrash = watchful.placeOf ["t"] 1 secondCrash :=
    placeOf_eq_iff.mpr rfl
  refine ⟨by decide, ?_, fun name hname => ?_⟩
  · rw [hplace]
    exact h.kept [firstCrash] secondCrash [] rfl (by simp)
  · by_contra hne
    have hothers : ∀ c ∈ [firstCrash, secondCrash],
        reportsOf ["t"] ++ [name] ≠ watchful.placeOf ["t"] 1 c := by
      simp [hplace, hne]
    obtain hold | ⟨-, hbelow, -⟩ := h.others _ hothers
    · exact hname (hold.trans (hnone name))
    · exact Files.not_prefix_concat _ _ hbelow

end Recorder

end Vigil.Telemetry
