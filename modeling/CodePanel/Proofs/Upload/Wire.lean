import CodePanel.Upload.Envelope
import CodePanel.Proofs.Json.Records

namespace CodePanel.Upload

open CodePanel.Json

theorem ofValue_toValue (envelope : Envelope) :
    Envelope.ofValue? envelope.toValue = some envelope := by
  have hrecord : envelope.toValue.record? ["t", "d"] =
      some [some (.ofString envelope.kind.tag), some (.ofString envelope.data)] :=
    record_ofFields (by simp)
  rw [Envelope.ofValue?, hrecord]
  rfl

theorem read_write (envelope : Envelope) : Envelope.read? envelope.write = some envelope := by
  have hspelled : envelope.toValue.WellSpelled := by
    refine wellSpelled_ofFields fun field hfield => ?_
    have hfields : field = ("t", .ofString envelope.kind.tag) ∨
        field = ("d", .ofString envelope.data) := by simpa using hfield
    rcases hfields with rfl | rfl
    · exact .string _
    · exact .string _
  rw [Envelope.read?, Envelope.write, parse_toText hspelled, Option.bind_some, ofValue_toValue]

-- Every upload comes back from the wire as it was sent, and so does every envelope that was read.
theorem wire_round_trip :
    (∀ data, Envelope.read? (Envelope.write ⟨.upload, data⟩) = some ⟨.upload, data⟩) ∧
    (∀ text : String, Envelope.read? (Envelope.upload text).write =
      some ⟨.upload, String.ofList (collapseBlankLines text.toList)⟩) ∧
    ∀ json envelope, Envelope.read? json = some envelope →
      Envelope.read? envelope.write = some envelope :=
  ⟨fun data => read_write ⟨.upload, data⟩, fun text => read_write (Envelope.upload text),
    fun _ envelope _ => read_write envelope⟩

-- A record without names, with a tag in its long form and a character in two halves.
theorem wire_round_trip_surrogates :
    Envelope.read? "[\x7b\"u\":null\x7d, \"\\ud83e\\udd16\\/\"]" = some ⟨.upload, "🤖/"⟩ ∧
    Envelope.read? (Envelope.write ⟨.upload, "🤖/"⟩) = some ⟨.upload, "🤖/"⟩ := by
  have hread : Envelope.read? "[\x7b\"u\":null\x7d, \"\\ud83e\\udd16\\/\"]" =
      some ⟨.upload, "🤖/"⟩ := by decide +kernel
  exact ⟨hread, wire_round_trip.2.2 _ _ hread⟩

end CodePanel.Upload
