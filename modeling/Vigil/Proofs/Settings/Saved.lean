import Mathlib
import Vigil.Proofs.Files.Outcomes
import Vigil.Proofs.Json.Printed
import Vigil.Proofs.Settings.Layers
import Vigil.Proofs.Text.Utf8

/-! Settings that were saved are the settings that are loaded. -/
namespace Vigil.Settings

variable {i : Item}

def fields (s : Settings) : Fields := items.map fun i => (i.key, i.slot.toJson s)

theorem toJson_eq (s : Settings) : s.toJson = .obj s.fields := rfl

theorem known_fields (s : Settings) : known s.fields = s.fields := by
  refine List.filter_eq_self.mpr fun f hf => ?_
  obtain ⟨i, hi, rfl⟩ := List.mem_map.mp hf
  exact isKnown_item hi

theorem fits_fields (s : Settings) : Fits s.fields := by
  refine ⟨?_, fun f hf i hi hkey => ?_⟩ <;> rw [known_fields] at *
  · simpa [fields, Function.comp_def] using keys_nodup
  · obtain ⟨j, hj, rfl⟩ := List.mem_map.mp hf
    obtain rfl := items_inj hi hj hkey
    exact (items_lawful hi).holds s

theorem lookup_fields (s : Settings) (h : i ∈ items) :
    s.fields.lookup i.key = some (i.slot.toJson s) := by
  rw [lookup_eq_some_iff (fits_fields s) h, known_fields]
  exact List.mem_map.mpr ⟨i, h, rfl⟩

theorem ofJson?_toJson (s : Settings) : ofJson? s.toJson = some s := by
  obtain ⟨s', hset, hholds⟩ := setFields?_default_of_fits (fits_fields s)
  have hsame : s' = s := by
    refine ext_items fun i hi => ?_
    rw [hholds i hi, lookup_fields s hi, Option.getD_some]
  rw [toJson_eq, ofJson?, hset, hsame]

theorem plain_toJson (s : Settings) : Json.Plain s.toJson := by
  refine .obj fun f hf => ?_
  obtain ⟨i, -, rfl⟩ := List.mem_map.mp hf
  change Json.Plain (i.slot.toJson s)
  cases i.slot with
  | text get set => exact .str _
  | number limit get set => exact .int _

theorem load_textOf (s : Settings) : load (some (Files.textOf s.toJson)) = s := by
  have hvalue : valueOf? (some (Files.textOf s.toJson)) = some s.toJson := by
    rw [valueOf?, Option.bind_some, Files.textOf, Utf8.decode?_encode, Option.bind_some,
      Json.read?_pretty (plain_toJson s)]
  rw [load_eq, hvalue, Option.bind_some, ofJson?_toJson, Option.getD_some]

theorem override_of_unset {env : String → Option String} (h : ∀ i ∈ items, env i.envName = none)
    (s : Settings) : override env s = s := by
  refine ext_items fun i hi => ?_
  rw [override_item hi, fromEnv?, h i hi, Option.bind_none, Option.getD_none]

/-- The text that settings are saved as is loaded as the same settings, whatever texts and numbers
they hold. So is what stands at a path once they have been saved there, and an environment without
any of their variables changes nothing. -/
theorem saved_settings_load (s : Settings) :
    load (some (Files.textOf s.toJson)) = s ∧
    (∀ (t : Files.Tree) (path : String), Files.OwnNames (Files.prepared t path).tree path →
      (Files.writeJson t path s.toJson).result = .ok () →
      load ((Files.writeJson t path s.toJson).tree.readAt path).toOption = s) ∧
    ∀ env, (∀ i ∈ items, env i.envName = none) → override env s = s := by
  refine ⟨load_textOf s, fun t path own hok => ?_, fun env h => override_of_unset h s⟩
  obtain ⟨hread, -⟩ := (Files.writeJson_course t path s.toJson).done own.ifWritten hok
  rw [hread]
  exact load_textOf s

/-- Quotes, a line break, a control character, a character of four bytes, and the largest
numbers. -/
def unusual : Settings :=
  { descriptorPath := "~/\x22a\x22\\\n\x01😀", startPollAttempts := 4294967295,
    watchIntervalMs := 18446744073709551615 }

theorem unusual_settings_load :
    Files.OwnNames (Files.prepared ⟨[]⟩ "/s.json").tree "/s.json" ∧
      (Files.writeJson ⟨[]⟩ "/s.json" unusual.toJson).result = .ok () ∧
      load ((Files.writeJson ⟨[]⟩ "/s.json" unusual.toJson).tree.readAt "/s.json").toOption =
        unusual ∧
      override (fun _ => none) unusual = unusual := by
  let t : Files.Tree := ⟨[]⟩
  have own := Files.ownNames_of_plain (t := t) (by simp [t]) "/s.json"
  have hok : (Files.writeJson t "/s.json" unusual.toJson).result = .ok () :=
    Files.settings_written (by rintro _ ⟨⟩) (by rintro ⟨⟩) unusual.toJson
  obtain ⟨-, hsaved, hunset⟩ := saved_settings_load unusual
  exact ⟨own, hok, hsaved t "/s.json" own hok, hunset _ fun _ _ => rfl⟩

end Vigil.Settings
