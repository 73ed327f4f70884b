import Mathlib
import Vigil.Proofs.Json.Compact
import Vigil.Proofs.Json.Sorted
import Vigil.Proofs.Telemetry.Log
import Vigil.Proofs.Text.Order

/-! The line of an event: whatever its texts are, it is one line, and is read as what was told. -/
namespace Vigil.Telemetry

open Files (Tree Place)

variable {t : Tree} {dir : Place} {properties : List (String × String)}

theorem Event.plain_toJson (e : Event) : Json.Plain e.toJson := by
  have htexts : ∀ f ∈ e.properties.map fun p => (p.1, Json.Value.str p.2), Json.Plain f.2 := by
    intro f hf
    obtain ⟨p, -, rfl⟩ := List.mem_map.mp hf
    exact .str p.2
  unfold Event.toJson
  apply Json.Plain.obj
  simp only [List.forall_mem_cons]
  exact ⟨.str _, .int _, .str _, .str _, .str _, .obj htexts, by simp⟩

/-- The log begins anew if it was full. -/
theorem held_writeEvent (hclear : t.Clear dir) (h : Ready t dir) (e : Event) :
    (writeEvent t dir e).held (logOf dir) =
      (if IsFull t dir then [] else t.held (logOf dir)) ++ Utf8.encode e.line := by
  obtain ⟨-, m, -, -, hm, hwrite⟩ := writeEvent_eq hclear h e
  have hlog : m.held (logOf dir) = if IsFull t dir then [] else t.held (logOf dir) := by
    have hget := hm (logOf dir)
    simp only [logOf_ne_oldLogOf, logOf_beyond, false_and, true_and, if_false] at hget
    split_ifs at hget ⊢ with hfull
    · exact Tree.held_of_none hget
    · exact Tree.held_congr hget
  have hput := m.get?_put (p := logOf dir) (by simp [logOf])
    (.file (m.held (logOf dir) ++ Utf8.encode e.line)) (logOf dir)
  rw [if_pos rfl] at hput
  rw [hwrite, Tree.held_of_file hput, hlog]

/-- The properties as they are kept: those with a key, each as it was given last. -/
theorem mem_kept_iff {key v : String} :
    (key, v) ∈ Json.sortFields (properties.filter fun p => !Text.isBlank p.1) ↔
      Text.isBlank key = false ∧ properties.reverse.lookup key = some v := by
  rw [Json.mem_sortFields_iff, ← List.filter_reverse, Json.lookup_filter_keys fun k => !Text.isBlank k]
  cases Text.isBlank key <;> simp

/-- Where events are recorded, an event comes behind the log as one line without a control character
in it. The line is read as what the event was told with: its kind, its origin, and each property
whose key is not blank, as it was given last, by the bytes of the keys. -/
theorem event_is_one_line (r : Recorder) (husage : r.usage = true) (now : Int) (kind : String)
    (properties : List (String × String)) (hclear : t.Clear dir) (hready : Ready t dir) :
    ∃ (e : Event) (fields : List (String × String)),
      r.event? now kind properties = some e ∧
      let told : Json.Value := .obj [
        ("event_type", .str kind), ("at_unix_millis", .int now), ("app", .str r.app),
        ("version", .str r.version), ("session_id", .str r.session),
        ("properties", .obj (fields.map fun f => (f.1, .str f.2)))]
      (writeEvent t dir e).held (logOf dir) =
        (if IsFull t dir then [] else t.held (logOf dir)) ++
          Utf8.encode (Json.compact told ++ ['\n']) ∧
      Json.Unbroken (Json.compact told) ∧
      Json.read? (Json.compact told) = some told ∧
      (∀ key v, (key, v) ∈ fields ↔
        Text.isBlank key = false ∧ properties.reverse.lookup key = some v) ∧
      fields.Pairwise fun f g => Utf8.encodeText f.1 < Utf8.encodeText g.1 := by
  generalize hfields : Json.sortFields (properties.filter fun p => !Text.isBlank p.1) = fields
  let e : Event := ⟨kind, now, r.app, r.version, r.session, fields⟩
  have hevent : r.event? now kind properties = some e := by
    rw [Recorder.event?, if_pos husage, hfields]
  have hascending : Json.Ascending fields := hfields ▸ Json.ascending_sortFields _
  refine ⟨e, fields, hevent, held_writeEvent hclear hready e, e.plain_toJson.unbroken_compact,
    Json.read?_compact e.plain_toJson, fun key v => ?_, ?_⟩
  · rw [← hfields]
    exact mem_kept_iff
  · exact hascending.imp Utf8.encodeText_lt_encodeText

theorem unusual_event_is_one_line :
    let r : Recorder :=
      { app := "watchfire-shell", version := "0.0.0-test", session := "S", usage := true }
    let t : Tree := {}
    let dir := dirOf ["root"] r.app
    let properties := [("b", "first"), ("\t", "blank"), ("\n\x22é😀", "\x01\\\r"), ("b", "last")]
    (r.usage = true ∧ t.Clear dir ∧ Ready t dir) ∧
    ∃ (e : Event) (fields : List (String × String)),
      r.event? (-1) "a\nb" properties = some e ∧
      let told : Json.Value := .obj [
        ("event_type", .str "a\nb"), ("at_unix_millis", .int (-1)), ("app", .str r.app),
        ("version", .str r.version), ("session_id", .str r.session),
        ("properties", .obj (fields.map fun f => (f.1, .str f.2)))]
      (writeEvent t dir e).held (logOf dir) = Utf8.encode (Json.compact told ++ ['\n']) ∧
      Json.Unbroken (Json.compact told) ∧
      Json.read? (Json.compact told) = some told ∧
      ("b", "last") ∈ fields ∧ ("b", "first") ∉ fields ∧ ("\t", "blank") ∉ fields ∧
      fields.Pairwise fun f g => Utf8.encodeText f.1 < Utf8.encodeText g.1 := by
  intro r t dir properties
  have hclear : t.Clear dir := Tree.clear_empty dir
  have habsent (name : String) : t.get? (dir ++ [name]) = none := Tree.get?_empty (by simp)
  have hready : Ready t dir :=
    ⟨Tree.writable_of_none (habsent _), Tree.writable_of_none (habsent _)⟩
  have hempty : t.held (logOf dir) = [] := Tree.held_of_none (habsent _)
  obtain ⟨e, fields, he, hheld, hline, hread, hmem, hsorted⟩ :=
    event_is_one_line r rfl (-1) "a\nb" properties hclear hready
  rw [hempty, ite_self, List.nil_append] at hheld
  refine ⟨⟨rfl, hclear, hready⟩, e, fields, he, hheld, hline, hread, ?_, ?_, ?_, hsorted⟩
  · exact (hmem _ _).mpr (by decide)
  · exact fun h => absurd ((hmem _ _).mp h) (by decide)
  · exact fun h => absurd ((hmem _ _).mp h) (by decide)

end Vigil.Telemetry
