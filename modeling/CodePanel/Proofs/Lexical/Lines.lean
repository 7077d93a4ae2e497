import CodePanel.Proofs.Markup.Symbols

namespace CodePanel.Source

-- A step only asks whether a word stands in front of it.
theorem pieces_of_not_word {before : Option Char} (h : before.any isWordChar = false)
    (text : List Char) : pieces before text = pieces none text := by
  cases text with
  | nil => simp only [pieces]
  | cons c rest =>
    have hname : ∀ name, isRegisterName before name = isRegisterName none name := by
      intro name
      simp only [isRegisterName, h, Option.any_none]
    have hreach : reach before c rest = reach none c rest := by
      simp only [reach, hname]
    simp only [pieces, hreach]

-- A break is one piece, and the scan starts anew behind it.
theorem pieces_ending {text ending : List Char} (h : IsEnding text ending) (before : Option Char)
    (behind : List Char) :
    pieces before (ending ++ behind) = ⟨.lineBreak, ending⟩ :: pieces none behind := by
  have hfresh : pieces (some '\n') behind = pieces none behind := pieces_of_not_word rfl behind
  rcases h with rfl | ⟨rfl, -⟩
  · rw [← hfresh, List.cons_append, pieces]
    simp [reach]
  · rw [← hfresh, List.cons_append, pieces]
    simp [reach]

-- Each step in front of a break is the same as at the end of the text.
theorem pieces_append_ending {text ending : List Char} (h : IsEnding text ending)
    (before : Option Char) (behind : List Char) :
    pieces before (text ++ (ending ++ behind)) =
      pieces before text ++ ⟨.lineBreak, ending⟩ :: pieces none behind := by
  fun_induction pieces before text with
  | case1 before => exact pieces_ending h before behind
  | case2 before c rest claim more ih =>
    have hreach : reach before c (rest ++ (ending ++ behind)) = claim := h.reach_eq behind before
    have hle : claim.2 ≤ rest.length := reach_le before c rest
    rw [List.cons_append, pieces]
    simp only [hreach, List.take_append_of_le_length hle, List.drop_append_of_le_length hle,
      List.cons_append]
    rw [ih (h.tail.drop claim.2)]

-- Text is not joined over a piece that is none.
theorem joinText_append_cons (front back : List Lexeme) {lexeme : Lexeme}
    (h : lexeme.kind ≠ .text) :
    joinText (front ++ lexeme :: back) = joinText front ++ lexeme :: joinText back := by
  induction front with
  | nil =>
    simp only [List.nil_append, joinText]
    cases joinText back with
    | nil => rfl
    | cons second more => simp only [h, false_and, if_false]
  | cons first front ih =>
    rw [List.cons_append, joinText, joinText, ih]
    cases joinText front with
    | nil => simp [h]
    | cons second more =>
      simp only [List.cons_append]
      split <;> rfl

theorem lexemes_append_ending {text ending : List Char} (h : IsEnding text ending)
    (behind : List Char) :
    lexemes (text ++ (ending ++ behind)) =
      lexemes text ++ ⟨.lineBreak, ending⟩ :: lexemes behind := by
  rw [lexemes, pieces_append_ending h, joinText_append_cons _ _ (by simp)]
  rfl

-- The same token, further behind.
def Token.shift (count : Nat) (token : Token) : Token :=
  ⟨token.kind, token.start + count, token.stop + count⟩

theorem place_add (start count : Nat) (list : List Lexeme) :
    place (start + count) list = (place start list).map (Token.shift count) := by
  induction list generalizing start with
  | nil => rfl
  | cons lexeme rest ih =>
    simp only [place, List.map_cons, Token.shift, ← ih, Nat.add_right_comm]

theorem tokenize_append_ending {text ending : List Char} (h : IsEnding text ending)
    (behind : List Char) :
    tokenize (text ++ (ending ++ behind)) =
      tokenize text ++
        ⟨.lineBreak, byteLength text, byteLength text + byteLength ending⟩ ::
          (tokenize behind).map (Token.shift (byteLength text + byteLength ending)) := by
  have hbehind := place_add 0 (byteLength text + byteLength ending) (lexemes behind)
  rw [Nat.zero_add] at hbehind
  rw [tokenize_eq, lexemes_append_ending h, place_append, textOf_lexemes, Nat.zero_add, place]
  simp only [hbehind, tokenize_eq]

end CodePanel.Source

namespace CodePanel.Markup

open CodePanel.Source

-- Each line is highlighted for itself, with its tokens where the line stands.
theorem highlight_append_ending {first ending : String}
    (h : IsEnding first.toList ending.toList) (second : String) :
    tokenize (first ++ ending ++ second).toList =
      tokenize first.toList ++
        ⟨.lineBreak, first.utf8ByteSize, first.utf8ByteSize + ending.utf8ByteSize⟩ ::
          (tokenize second.toList).map
            (Token.shift (first.utf8ByteSize + ending.utf8ByteSize)) ∧
    ∀ options, highlight options (first ++ ending ++ second) =
      highlight options first ++ "<br>" ++ highlight options second := by
  have htext : (first ++ ending ++ second).toList =
      first.toList ++ (ending.toList ++ second.toList) := by
    simp only [String.toList_append, List.append_assoc]
  refine ⟨?_, fun options => ?_⟩
  · rw [htext, tokenize_append_ending h, byteLength_toList, byteLength_toList]
  · have hrender : render options (first ++ ending ++ second).toList =
        render options first.toList ++ "<br>".toList ++ render options second.toList := by
      rw [htext, render_eq, render_eq, render_eq, lexemes_append_ending h, writeLexemes,
        List.flatMap_append, List.flatMap_cons, ← List.append_assoc]
      rfl
    rw [highlight, hrender, String.ofList_append, String.ofList_append, String.ofList_toList]
    rfl

-- Highlighting goes line by line, whichever way the line is ended. A `\n` behind a `\r` would not
-- be a break of its own.
theorem highlight_line_by_line (first second : String) :
    (first.toList.getLast? ≠ some '\r' →
      tokenize (first ++ "\n" ++ second).toList =
        tokenize first.toList ++
          ⟨.lineBreak, first.utf8ByteSize, first.utf8ByteSize + 1⟩ ::
            (tokenize second.toList).map (Token.shift (first.utf8ByteSize + 1)) ∧
      ∀ options, highlight options (first ++ "\n" ++ second) =
        highlight options first ++ "<br>" ++ highlight options second) ∧
    tokenize (first ++ "\r\n" ++ second).toList =
      tokenize first.toList ++
        ⟨.lineBreak, first.utf8ByteSize, first.utf8ByteSize + 2⟩ ::
          (tokenize second.toList).map (Token.shift (first.utf8ByteSize + 2)) ∧
    ∀ options, highlight options (first ++ "\r\n" ++ second) =
      highlight options first ++ "<br>" ++ highlight options second :=
  ⟨fun hlast => highlight_append_ending (Or.inr ⟨rfl, hlast⟩) second,
    highlight_append_ending (Or.inl rfl) second⟩

-- A comment with a lone `\r` in it, and a register at the start of the next line.
theorem highlight_line_by_line_register :
    "jmp // 5\r%".toList.getLast? ≠ some '\r' ∧
    tokenize ("jmp // 5\r%" ++ "\n" ++ "%ab").toList =
      tokenize "jmp // 5\r%".toList ++
        ⟨.lineBreak, "jmp // 5\r%".utf8ByteSize, "jmp // 5\r%".utf8ByteSize + 1⟩ ::
          (tokenize "%ab".toList).map (Token.shift ("jmp // 5\r%".utf8ByteSize + 1)) := by
  have hlast : "jmp // 5\r%".toList.getLast? ≠ some '\r' := by decide
  exact ⟨hlast, ((highlight_line_by_line _ _).1 hlast).1⟩

end CodePanel.Markup
