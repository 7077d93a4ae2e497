namespace CodePanel.Source

inductive Kind where
  | lineBreak
  | comment
  | constant
  | label
  | declaration
  | instruction
  | register
  | variable
  | jump
  | text
deriving DecidableEq

-- The style class of a kind. Line breaks and plain text are shown without one.
def Kind.styleClass : Kind → Option String
  | .lineBreak => none
  | .comment => some "comment"
  | .constant => some "constant"
  | .label => some "label"
  | .declaration => some "declaration"
  | .instruction => some "instruction"
  | .register => some "register"
  | .variable => some "variable"
  | .jump => some "jump"
  | .text => none

def Kind.isHighlighted (kind : Kind) : Bool :=
  kind.styleClass.isSome

structure Rule where
  kind : Kind
  description : String
deriving DecidableEq

-- The rules in the order in which they claim a position of the text. Comments stand before
-- words, so everything behind `//` stays inside the comment.
def rules : List Rule := [
  ⟨.lineBreak, "newline, rendered as a line break"⟩,
  ⟨.comment, "`//` through the end of the line"⟩,
  ⟨.constant, "whole word of 1-3 decimal digits"⟩,
  ⟨.label, "identifier immediately followed by `:`"⟩,
  ⟨.declaration, "the `let` keyword"⟩,
  ⟨.instruction, "instruction mnemonic"⟩,
  ⟨.register, "`%` plus 1-3 lowercase letters, as a whole word"⟩,
  ⟨.variable, "`$` plus an identifier"⟩,
  ⟨.jump, "`@` plus an identifier"⟩,
  ⟨.text, "anything else, passed through"⟩]

end CodePanel.Source
