import CodePanel.Map.Settings

namespace CodePanel

open Text

theorem checkLength_eq_ok_iff {field : String} {value : Float} :
    checkLength field value = .ok () ↔ value.isFinite = true ∧ 0.0 ≤ value := by
  unfold checkLength
  split
  · next h => simpa using h
  · next h => simpa using h

namespace Overlay.Settings

variable {settings : Settings}

theorem validate_eq_ok_iff :
    settings.validate = .ok () ↔ isBlank settings.inputId.toList = false ∧
      settings.backdropIds.isEmpty = false ∧
      firstRepeated? [] (settings.inputId :: settings.backdropIds) = none ∧
      checkStem settings.classStem = .ok () ∧ checkInset settings.inset? = .ok () := by
  unfold validate
  constructor
  · intro h
    split at h
    · cases h
    next hinput =>
    split at h
    · cases h
    next hbackdrops =>
    split at h
    · cases h
    next hrepeated =>
    split at h
    · cases h
    next hstem =>
    exact ⟨eq_false_of_ne_true hinput, eq_false_of_ne_true hbackdrops, hrepeated, hstem, h⟩
  · rintro ⟨hinput, hbackdrops, hrepeated, hstem, hinset⟩
    simp only [hinput, hbackdrops, hrepeated, hstem, hinset, Bool.false_eq_true, if_false]

-- What is read has passed its check.
theorem read_eq_ok_iff {text : String} :
    read text = .ok settings ↔
      (Json.parse? text.toList).bind ofValue? = some settings ∧ settings.validate = .ok () := by
  unfold read
  cases (Json.parse? text.toList).bind ofValue? with
  | none => simp
  | some found =>
    cases hcheck : found.validate with
    | error error => grind
    | ok => grind

-- The inset is a length.
theorem isFinite_of_validate (h : settings.validate = .ok ()) {inset : Float}
    (hinset : settings.inset? = some inset) : inset.isFinite = true := by
  obtain ⟨-, -, -, -, hcheck⟩ := validate_eq_ok_iff.mp h
  rw [hinset] at hcheck
  exact (checkLength_eq_ok_iff.mp hcheck).1

end Overlay.Settings

namespace Map.Settings

variable {settings : Settings}

theorem validate_eq_ok_iff :
    settings.validate = .ok () ↔ settings.canvasId ≠ settings.overlayId ∧
      checkLength "tileWidth" settings.tileWidth = .ok () ∧
      checkLength "tileHeight" settings.tileHeight = .ok () := by
  unfold validate
  constructor
  · intro h
    split at h
    · cases h
    next hids =>
    split at h
    · cases h
    next hwidth =>
    exact ⟨hids, hwidth, h⟩
  · rintro ⟨hids, hwidth, hheight⟩
    simp only [hids, hwidth, hheight, if_false]

theorem isFinite_of_validate (h : settings.validate = .ok ()) :
    settings.tileWidth.isFinite = true ∧ settings.tileHeight.isFinite = true := by
  obtain ⟨-, hwidth, hheight⟩ := validate_eq_ok_iff.mp h
  exact ⟨(checkLength_eq_ok_iff.mp hwidth).1, (checkLength_eq_ok_iff.mp hheight).1⟩

-- What is read has passed its check.
theorem read_eq_ok_iff {text : String} :
    read text = .ok settings ↔
      (Json.parse? text.toList).bind ofValue? = some settings ∧ settings.validate = .ok () := by
  unfold read
  cases (Json.parse? text.toList).bind ofValue? with
  | none => simp
  | some found =>
    cases hcheck : found.validate with
    | error error => grind
    | ok => grind

end Map.Settings

end CodePanel
