import CodePanel.Json.Parser
import CodePanel.Json.Writer

namespace CodePanel.Json

-- A character in front of what has been read.
def Piece.put (c : Char) (read : List Piece × List Char) : List Piece × List Char :=
  (.char c :: read.1, read.2)

theorem readPieces_letter {c letter : Char} (h : unescape? letter = some c) (rest : List Char) :
    readPieces ('\\' :: letter :: rest) = (readPieces rest).map (Piece.put c) := by
  rw [readPieces, h]
  · cases readPieces rest <;> rfl
  · rintro a b d e more rfl
    cases h

theorem hexValue_hexDigit (n : Nat) : hexValue? (hexDigit n) = some (n % 16) := by
  have hall : ∀ k < 16, hexValue? (Nat.digitChar k) = some k := by decide
  exact hall (n % 16) (Nat.mod_lt n (by decide))

-- A control character is written with its code, which has two digits.
theorem readPieces_control {c : Char} (h : c.toNat < 0x20) (rest : List Char) :
    readPieces ('\\' :: 'u' :: '0' :: '0' :: hexDigit (c.toNat / 16) :: hexDigit c.toNat :: rest) =
      (readPieces rest).map (Piece.put c) := by
  have hzero : hexValue? '0' = some 0 := by decide
  have hvalue : (0 * 16 + 0) * 256 + (c.toNat / 16 % 16 * 16 + c.toNat % 16) = c.toNat := by omega
  have hcode : codeOf? '0' '0' (hexDigit (c.toNat / 16)) (hexDigit c.toNat) = some c.toNat := by
    simp only [codeOf?, hzero, hexValue_hexDigit, bind, Option.bind, hvalue]
  have hpiece : Piece.ofCode c.toNat = .char c := by
    rw [Piece.ofCode, if_neg (by omega), Char.ofNat_toNat]
  rw [readPieces, hcode]
  cases readPieces rest with
  | none => rfl
  | some read => simp only [hpiece, Option.map_some, Piece.put]

theorem readPieces_plain {c : Char} (hquote : c ≠ '"') (hescape : c ≠ '\\')
    (hcontrol : ¬c.toNat < 0x20) (rest : List Char) :
    readPieces (c :: rest) = (readPieces rest).map (Piece.put c) := by
  rw [readPieces, if_neg hcontrol]
  · cases readPieces rest <;> rfl
  · exact hquote
  · intro a b d e more h
    exact absurd h hescape
  · intro letter more h
    exact absurd h hescape

-- A written character is read back as itself.
theorem readPieces_escapeChar (c : Char) (rest : List Char) :
    readPieces (escapeChar c ++ rest) = (readPieces rest).map (Piece.put c) := by
  unfold escapeChar
  split
  · next h => exact readPieces_letter (by rw [h]; rfl) rest
  next hquote =>
  split
  · next h => exact readPieces_letter (by rw [h]; rfl) rest
  next hescape =>
  split
  · next h => exact readPieces_letter (by rw [h]; rfl) rest
  split
  · next h => exact readPieces_letter (by rw [h]; rfl) rest
  split
  · next h => exact readPieces_letter (by rw [h]; rfl) rest
  split
  · next h => exact readPieces_letter (by rw [h]; rfl) rest
  split
  · next h => exact readPieces_letter (by rw [h]; rfl) rest
  split
  · next h => exact readPieces_control h rest
  · next h => exact readPieces_plain hquote hescape h rest

theorem readPieces_flatMap_escapeChar (text rest : List Char) :
    readPieces (text.flatMap escapeChar ++ '"' :: rest) = some (text.map .char, rest) := by
  induction text with
  | nil => simp [readPieces]
  | cons c text ih =>
    rw [List.flatMap_cons, List.append_assoc, readPieces_escapeChar, ih]
    rfl

theorem joinPieces_map_char (text : List Char) : joinPieces (text.map .char) = some text := by
  induction text with
  | nil => rfl
  | cons c text ih => rw [List.map_cons, joinPieces, ih, Option.map_some]

-- A written string is read up to its own closing quote, whatever stands in it and behind it.
theorem readString_writeText (text : Option String) :
    ∃ inside, writeText text = '"' :: inside ∧
      ∀ rest, readString (inside ++ rest) = some (text, rest) := by
  cases text with
  | none =>
    refine ⟨"\\ud800\"".toList, rfl, fun rest => ?_⟩
    simp [readString, readPieces, codeOf?, hexValue?, Piece.ofCode, joinPieces]
  | some text =>
    refine ⟨text.toList.flatMap escapeChar ++ ['"'], rfl, fun rest => ?_⟩
    rw [List.append_assoc, List.singleton_append, readString, readPieces_flatMap_escapeChar]
    simp only [Option.map_some, joinPieces_map_char, String.ofList_toList]

end CodePanel.Json
