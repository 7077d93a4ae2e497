import CodePanel.Proofs.Json.Records
import CodePanel.Proofs.Json.Spelling
import CodePanel.Proofs.Settings.Validity

namespace CodePanel

open Json Fit

namespace Json

theorem string_ofString (text : String) : (Value.ofString text).string? = some text := rfl

theorem wellSpelled_ofOption {toValue : α → Value} {given : Option α}
    (h : ∀ a ∈ given, (toValue a).WellSpelled) : (Value.ofOption toValue given).WellSpelled := by
  cases given with
  | none => exact .null
  | some a => exact h a rfl

-- A value that is read back is not taken for a missing one.
theorem nullable_ofOption_iff {toValue : α → Value} {item? : Value → Option α} {given : Option α}
    (hnull : item? .null = none) :
    Value.nullable? item? (.ofOption toValue given) = some given ↔
      ∀ a ∈ given, item? (toValue a) = some a := by
  cases given with
  | none => simp [Value.ofOption, Value.nullable?]
  | some a =>
    simp only [Value.ofOption, Option.mem_some_iff, forall_eq']
    unfold Value.nullable?
    split
    · next hvalue => simp [hvalue, hnull]
    · simp

theorem list_array_map {toValue : α → Value} {item? : Value → Option α}
    (h : ∀ a, item? (toValue a) = some a) (given : List α) :
    Value.list? item? (.array (given.map toValue)) = some given := by
  rw [Value.list?]
  induction given with
  | nil => rfl
  | cons a given ih =>
    rw [List.map_cons, List.mapM_cons, h, ih]
    rfl

-- What is written for a number is read as the same number.
def NumberReadsBack (x : Float) : Prop :=
  (parse? (Value.ofFloat x).toText.toList).bind Value.float? = some x

instance (x : Float) : Decidable (NumberReadsBack x) :=
  inferInstanceAs (Decidable (_ = _))

-- This is so for the numbers of a few digits that settings are made of, but not for all: the digits
-- and the power of ten are rounded one after the other.
example : NumberReadsBack 16.5 ∧ ¬NumberReadsBack 23.986245723664542 := by decide +kernel

theorem float_ofFloat_iff {x : Float} : (Value.ofFloat x).float? = some x ↔ NumberReadsBack x := by
  rw [NumberReadsBack, parse_toText (wellSpelled_ofFloat x), Option.bind_some]

end Json

namespace Overlay

theorem wellSpelled_overridesValue (overrides : Overrides) :
    (overridesValue overrides).WellSpelled := by
  refine wellSpelled_ofFields fun field hfield => ?_
  simp only [List.mem_cons, List.not_mem_nil, or_false] at hfield
  rcases hfield with rfl | rfl
  · exact wellSpelled_ofOption fun value _ => .bool value
  · exact wellSpelled_ofOption fun inset _ => wellSpelled_ofFloat inset

theorem overridesOfValue_overridesValue_iff {overrides : Overrides} :
    overridesOfValue? (overridesValue overrides) = some overrides ↔
      ∀ inset ∈ overrides.inset, NumberReadsBack inset := by
  have hrecord : (overridesValue overrides).record? ["spaceBreakHint", "horizontalPaddingPx"] =
      some [some (.ofOption .bool overrides.spaceBreakHint),
        some (.ofOption .ofFloat overrides.inset)] := record_ofFields (by simp)
  have hhint : Value.nullable? Value.bool? (.ofOption .bool overrides.spaceBreakHint) =
      some overrides.spaceBreakHint := (nullable_ofOption_iff rfl).mpr fun _ _ => rfl
  have hinset : Value.nullable? Value.float? (.ofOption .ofFloat overrides.inset) =
      some overrides.inset ↔ ∀ inset ∈ overrides.inset, NumberReadsBack inset := by
    rw [nullable_ofOption_iff rfl]
    simp only [float_ofFloat_iff]
  simp only [overridesOfValue?, hrecord, optional?, hhint, ← hinset, Option.bind_eq_bind,
    Option.bind_some]
  constructor
  · intro h
    obtain ⟨inset, hread, hsame⟩ := Option.bind_eq_some_iff.mp h
    rw [hread, ← Option.some.inj hsame]
  · intro h
    rw [h, Option.bind_some]

theorem wellSpelled_toValue (settings : Settings) : settings.toValue.WellSpelled := by
  refine wellSpelled_ofFields fun field hfield => ?_
  simp only [List.mem_cons, List.not_mem_nil, or_false] at hfield
  rcases hfield with rfl | rfl | rfl | rfl
  · exact .string _
  · refine .array fun item hitem => ?_
    obtain ⟨id, -, rfl⟩ := List.mem_map.mp hitem
    exact .string _
  · exact wellSpelled_ofOption fun _ _ => .string _
  · exact wellSpelled_ofOption fun overrides _ => wellSpelled_overridesValue overrides

theorem ofValue_toValue_iff {settings : Settings} :
    Settings.ofValue? settings.toValue = some settings ↔
      ∀ inset ∈ settings.inset?, NumberReadsBack inset := by
  have hrecord : settings.toValue.record? ["inputId", "backdropIds", "classPrefix", "quirks"] =
      some [some (.ofString settings.inputId),
        some (.array (settings.backdropIds.map .ofString)),
        some (.ofOption .ofString settings.classStem),
        some (.ofOption overridesValue settings.overrides)] := record_ofFields (by simp)
  have hids : Value.list? Value.string? (.array (settings.backdropIds.map .ofString)) =
      some settings.backdropIds := list_array_map string_ofString _
  have hstem : Value.nullable? Value.string? (.ofOption .ofString settings.classStem) =
      some settings.classStem :=
    (nullable_ofOption_iff rfl).mpr fun text _ => string_ofString text
  have hoverrides : Value.nullable? overridesOfValue?
      (.ofOption overridesValue settings.overrides) = some settings.overrides ↔
      ∀ inset ∈ settings.inset?, NumberReadsBack inset := by
    rw [nullable_ofOption_iff rfl]
    simp only [overridesOfValue_overridesValue_iff, Settings.inset?]
    cases settings.overrides with
    | none => simp
    | some overrides => simp
  simp only [Settings.ofValue?, hrecord, optional?, string_ofString, hids, hstem, ← hoverrides,
    Option.bind_eq_bind, Option.bind_some]
  constructor
  · intro h
    obtain ⟨overrides, hread, hsame⟩ := Option.bind_eq_some_iff.mp h
    rw [hread, ← Option.some.inj hsame]
  · intro h
    rw [h, Option.bind_some]

theorem read_write_iff {settings : Settings} (hvalid : settings.validate = .ok ()) :
    Settings.read settings.write = .ok settings ↔
      ∀ inset ∈ settings.inset?, inset.isFinite = true → NumberReadsBack inset := by
  have hfinite : ∀ inset ∈ settings.inset?, inset.isFinite = true :=
    fun inset hinset => Settings.isFinite_of_validate hvalid hinset
  rw [Settings.read_eq_ok_iff, Settings.write, parse_toText (wellSpelled_toValue settings),
    Option.bind_some, ofValue_toValue_iff]
  constructor
  · rintro ⟨hreads, -⟩ inset hinset _
    exact hreads inset hinset
  · intro h
    exact ⟨fun inset hinset => h inset hinset (hfinite inset hinset), hvalid⟩

end Overlay

namespace Map

theorem wellSpelled_toValue (settings : Settings) : settings.toValue.WellSpelled := by
  refine wellSpelled_ofFields fun field hfield => ?_
  simp only [List.mem_cons, List.not_mem_nil, or_false] at hfield
  rcases hfield with rfl | rfl | rfl | rfl | rfl | rfl | rfl
  · exact .string _
  · exact .string _
  · exact wellSpelled_ofFloat _
  · exact wellSpelled_ofFloat _
  · exact .string _
  · exact .string _
  · exact .string _

theorem ofValue_toValue_iff {settings : Settings} :
    Settings.ofValue? settings.toValue = some settings ↔
      NumberReadsBack settings.tileWidth ∧ NumberReadsBack settings.tileHeight := by
  have hrecord : settings.toValue.record? ["canvasId", "overlayId", "tileWidth", "tileHeight",
      "highlightAsset", "assetBase", "assetExtension"] =
      some [some (.ofString settings.canvasId), some (.ofString settings.overlayId),
        some (.ofFloat settings.tileWidth), some (.ofFloat settings.tileHeight),
        some (.ofString settings.highlightAsset), some (.ofString settings.assetBase),
        some (.ofString settings.assetExtension)] := record_ofFields (by simp)
  simp only [Settings.ofValue?, hrecord, optional?, string_ofString, Option.bind_eq_bind,
    Option.bind_some, ← float_ofFloat_iff]
  constructor
  · intro h
    obtain ⟨width, hwidth, h⟩ := Option.bind_eq_some_iff.mp h
    obtain ⟨height, hheight, hsame⟩ := Option.bind_eq_some_iff.mp h
    rw [hwidth, hheight, ← Option.some.inj hsame]
    exact ⟨rfl, rfl⟩
  · rintro ⟨hwidth, hheight⟩
    rw [hwidth, hheight, Option.bind_some, Option.bind_some]

theorem read_write_iff {settings : Settings} (hvalid : settings.validate = .ok ()) :
    Settings.read settings.write = .ok settings ↔
      ∀ size ∈ [settings.tileWidth, settings.tileHeight],
        size.isFinite = true → NumberReadsBack size := by
  obtain ⟨hwidth, hheight⟩ := Settings.isFinite_of_validate hvalid
  rw [Settings.read_eq_ok_iff, Settings.write, parse_toText (wellSpelled_toValue settings),
    Option.bind_some, ofValue_toValue_iff]
  simp [hwidth, hheight, hvalid]

end Map

-- Settings that pass their check are read back as they were written, if their lengths are and only
-- then: every field comes back under its own name, and what is missing stays missing.
theorem settings_round_trip :
    (∀ settings : Overlay.Settings, settings.validate = .ok () →
      (Overlay.Settings.read settings.write = .ok settings ↔
        ∀ inset ∈ settings.inset?, inset.isFinite = true → NumberReadsBack inset)) ∧
    ∀ settings : Map.Settings, settings.validate = .ok () →
      (Map.Settings.read settings.write = .ok settings ↔
        ∀ size ∈ [settings.tileWidth, settings.tileHeight],
          size.isFinite = true → NumberReadsBack size) :=
  ⟨fun _ => Overlay.read_write_iff, fun _ => Map.read_write_iff⟩

-- Texts with quotes, control characters and characters beyond the first plane, an empty class
-- stem, and overrides that are given but hold nothing or a negative zero.
theorem settings_round_trip_unusual :
    Overlay.Settings.read (Overlay.Settings.write
        ⟨"\"\x00🤖", ["é", ""], some "", some ⟨none, some (-0.0)⟩⟩) =
      .ok ⟨"\"\x00🤖", ["é", ""], some "", some ⟨none, some (-0.0)⟩⟩ ∧
    Map.Settings.read (Map.Settings.write
        { canvasId := "\\", tileWidth := 0.1, tileHeight := 1e21, assetBase := " " }) =
      .ok { canvasId := "\\", tileWidth := 0.1, tileHeight := 1e21, assetBase := " " } := by
  constructor
  · refine (settings_round_trip.1 _ rfl).mpr ?_
    intro inset hinset _
    cases hinset
    decide +kernel
  · refine (settings_round_trip.2 _ rfl).mpr ?_
    intro size hsize _
    simp only [List.mem_cons, List.not_mem_nil, or_false] at hsize
    rcases hsize with rfl | rfl
    · decide +kernel
    · decide +kernel

end CodePanel
