import CodePanel.Source.Kind

namespace CodePanel.Source

-- A piece of text with its kind.
structure Lexeme where
  kind : Kind
  text : List Char
deriving DecidableEq

-- A kind over a range of bytes. Offsets count the bytes of a source in UTF-8.
structure Token where
  kind : Kind
  start : Nat
  stop : Nat
deriving DecidableEq

-- The text in front of a byte offset and the text behind it. There is none if the offset lies
-- inside a character or behind the end.
def splitBytes? : Nat → List Char → Option (List Char × List Char)
  | 0, text => some ([], text)
  | _ + 1, [] => none
  | count + 1, c :: rest =>
    if c.utf8Size ≤ count + 1 then
      (splitBytes? (count + 1 - c.utf8Size) rest).map fun (front, back) => (c :: front, back)
    else none

-- The part of a source between two byte offsets.
def slice? (source : List Char) (start stop : Nat) : Option (List Char) := do
  if stop < start then none
  else
    let (_, back) ← splitBytes? start source
    let (middle, _) ← splitBytes? (stop - start) back
    some middle

def Token.text (source : List Char) (token : Token) : List Char :=
  (slice? source token.start token.stop).getD []

def Token.lexeme (source : List Char) (token : Token) : Lexeme :=
  ⟨token.kind, token.text source⟩

end CodePanel.Source
