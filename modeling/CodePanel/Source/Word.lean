import CodePanel.Source.Kind

namespace CodePanel.Source

-- Words hold ASCII letters, ASCII digits and underscores.
def isWordChar (c : Char) : Bool :=
  c.isAlphanum || c == '_'

-- An identifier starts like a word, but not with a digit.
def isIdentStart (c : Char) : Bool :=
  c.isAlpha || c == '_'

-- The words that declare memory.
def keywords : List String := ["let"]

-- The instructions of the robot.
def mnemonics : List String := [
  "add", "sub", "mul", "div", "jmp", "jmpc", "mov", "stac_g", "stac_s", "exec", "return",
  "cmp_call", "fwd", "rot", "brk", "bttry", "inven", "drop", "item", "out", "noop"]

-- The kind of a bare word. The assembler does not tell ASCII capitals from small letters.
def wordKind (word : List Char) : Kind :=
  let small := word.map Char.toLower
  if keywords.any (·.toList == small) then .declaration
  else if mnemonics.any (·.toList == small) then .instruction
  else .text

-- An identifier's first character is one of its word's characters.
theorem isWordChar_of_isIdentStart {c : Char} (h : isIdentStart c = true) :
    isWordChar c = true := by
  simp only [isIdentStart, isWordChar, Char.isAlphanum, Bool.or_eq_true] at h ⊢
  cases h with
  | inl letter => exact Or.inl (Or.inl letter)
  | inr underscore => exact Or.inr underscore

end CodePanel.Source
