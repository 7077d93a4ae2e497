import CodePanel.Json.Record
import CodePanel.Proofs.Json.ReadBack

namespace CodePanel.Json

variable {fields : List (String × Value)}

theorem wellSpelled_ofFields (h : ∀ field ∈ fields, field.2.WellSpelled) :
    (Value.ofFields fields).WellSpelled := by
  refine .object fun field hfield => ?_
  obtain ⟨given, hgiven, rfl⟩ := List.mem_map.mp hfield
  exact h given hgiven

-- A name that is given once is found once.
theorem filter_ofFields (h : (fields.map Prod.fst).Nodup) {name : String} {value : Value}
    (hmem : (name, value) ∈ fields) :
    (fields.map fun field => (some field.1, field.2)).filter (·.1 == some name) =
      [(some name, value)] := by
  induction fields with
  | nil => cases hmem
  | cons field rest ih =>
    obtain ⟨hfresh, hrest⟩ := List.nodup_cons.mp h
    rw [List.map_cons, List.filter_cons]
    rcases List.mem_cons.mp hmem with rfl | hmem
    · have hnone :
          (rest.map fun field => (some field.1, field.2)).filter (·.1 == some name) = [] := by
        rw [List.filter_eq_nil_iff]
        intro other hother hname
        obtain ⟨given, hgiven, rfl⟩ := List.mem_map.mp hother
        have heq : given.1 = name := by simpa using hname
        exact hfresh (List.mem_map.mpr ⟨given, hgiven, heq⟩)
      rw [hnone]
      simp
    · have hne : field.1 ≠ name := by
        rintro rfl
        exact hfresh (List.mem_map.mpr ⟨_, hmem, rfl⟩)
      rw [ih hrest hmem]
      simp [hne]

theorem mapM_field_ofFields (h : (fields.map Prod.fst).Nodup) {part : List (String × Value)}
    (hpart : ∀ field ∈ part, field ∈ fields) :
    (part.map Prod.fst).mapM (field? (fields.map fun field => (some field.1, field.2))) =
      some (part.map fun field => some field.2) := by
  induction part with
  | nil => rfl
  | cons field part ih =>
    have hfield : field? (fields.map fun field => (some field.1, field.2)) field.1 =
        some (some field.2) := by
      rw [field?, filter_ofFields h (hpart field (by simp))]
    have hmore := ih fun other hother => hpart other (by simp [hother])
    rw [List.map_cons, List.mapM_cons, hfield, hmore]
    rfl

theorem record_ofFields (h : (fields.map Prod.fst).Nodup) :
    (Value.ofFields fields).record? (fields.map Prod.fst) =
      some (fields.map fun field => some field.2) := by
  have hnamed : (fields.map fun field => (some field.1, field.2)).all (·.1.isSome) = true := by
    simp
  rw [Value.ofFields, Value.record?, if_pos hnamed]
  exact mapM_field_ofFields h fun _ hfield => hfield

end CodePanel.Json
