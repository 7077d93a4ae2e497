import CodePanel.Source.Token
import CodePanel.Source.Word

namespace CodePanel.Source

-- The number of characters before the end of the line. A line ends at `\n` or at `\r\n`.
def lineLength : List Char → Nat
  | [] => 0
  | '\n' :: _ => 0
  | '\r' :: '\n' :: _ => 0
  | _ :: rest => lineLength rest + 1

-- The word characters that a text starts with.
def wordAhead (text : List Char) : List Char :=
  text.takeWhile isWordChar

-- A `%` that does not touch a word before it opens a register name of one to three small letters.
def isRegisterName (before : Option Char) (name : List Char) : Bool :=
  !before.any isWordChar && 1 ≤ name.length && name.length ≤ 3 && name.all Char.isLower

-- A word that starts with a digit is a constant if it is a number of at most three digits.
def isConstantName (word : List Char) : Bool :=
  word.length ≤ 3 && word.all Char.isDigit

-- A sigil claims the identifier behind it, and stands alone as text if there is none.
def sigilReach (kind : Kind) (rest : List Char) : Kind × Nat :=
  if rest.head?.any isIdentStart then (kind, (wordAhead rest).length) else (.text, 0)

-- A word is a constant, a label with its colon, or what the assembler knows it as.
def wordReach (c : Char) (rest : List Char) : Kind × Nat :=
  let tail := wordAhead rest
  let word := c :: tail
  if c.isDigit then (if isConstantName word then .constant else .text, tail.length)
  else if (rest.drop tail.length).head? = some ':' then (.label, tail.length + 1)
  else (wordKind word, tail.length)

-- The kind of the piece that starts with `c`, and how many further characters belong to it.
-- `before` is the character in front of `c`, `rest` is the text behind it.
def reach (before : Option Char) (c : Char) (rest : List Char) : Kind × Nat :=
  if c = '\n' then (.lineBreak, 0)
  else if c = '\r' ∧ rest.head? = some '\n' then (.lineBreak, 1)
  else if c = '/' ∧ rest.head? = some '/' then (.comment, lineLength (rest.drop 1) + 1)
  else if c = '%' then
    let name := wordAhead rest
    if isRegisterName before name then (.register, name.length) else (.text, 0)
  else if c = '$' then sigilReach .variable rest
  else if c = '@' then sigilReach .jump rest
  else if isWordChar c then wordReach c rest
  else (.text, 0)

-- What the scanner does, told by characters: a piece is taken, and the text behind it is cut in the
-- same way.
def pieces (before : Option Char) : List Char → List Lexeme
  | [] => []
  | c :: rest =>
    let claim := reach before c rest
    let more := rest.take claim.2
    ⟨claim.1, c :: more⟩ :: pieces (some (more.getLastD c)) (rest.drop claim.2)
termination_by text => text.length
decreasing_by simp only [List.length_drop, List.length_cons]; omega

-- Neighbouring pieces of plain text become one piece.
def joinText : List Lexeme → List Lexeme
  | [] => []
  | first :: rest =>
    match joinText rest with
    | [] => [first]
    | second :: more =>
      if first.kind = .text ∧ second.kind = .text then
        ⟨.text, first.text ++ second.text⟩ :: more
      else first :: second :: more

def lexemes (source : List Char) : List Lexeme :=
  joinText (pieces none source)

def textOf (lexemes : List Lexeme) : List Char :=
  lexemes.flatMap Lexeme.text

-- Cutting loses nothing and adds nothing.
theorem textOf_pieces (before : Option Char) (source : List Char) :
    textOf (pieces before source) = source := by
  fun_induction pieces before source with
  | case1 => rfl
  | case2 before c rest claim more ih =>
    simp only [textOf, List.flatMap_cons] at ih ⊢
    rw [ih, List.cons_append, List.take_append_drop]

theorem textOf_joinText (list : List Lexeme) : textOf (joinText list) = textOf list := by
  induction list with
  | nil => rfl
  | cons first rest ih =>
    simp only [textOf, List.flatMap_cons] at ih ⊢
    rw [← ih, joinText]
    split
    · next h => simp [h]
    · next second more h =>
      rw [h]
      split <;> simp

theorem textOf_lexemes (source : List Char) : textOf (lexemes source) = source := by
  rw [lexemes, textOf_joinText, textOf_pieces]

end CodePanel.Source
