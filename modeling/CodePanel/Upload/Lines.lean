import CodePanel.Text.Space

namespace CodePanel.Upload

open CodePanel.Text

-- The lines of a text, each with its `\n`. The last one may be without.
def lines : List Char → List (List Char)
  | [] => []
  | c :: rest =>
    if c = '\n' then [c] :: lines rest
    else match lines rest with
      | [] => [[c]]
      | line :: more => (c :: line) :: more

def endsWith (part text : List Char) : Bool :=
  part.reverse.isPrefixOf text.reverse

-- A blank line ends in `\n` and holds nothing but white space.
def isBlankLine (line : List Char) : Bool :=
  endsWith ['\n'] line && isBlank line

-- A single blank line stays as it is. Two or more become one empty line, with the line ending of
-- the first.
def squeezeRun : List (List Char) → List (List Char)
  | [] => []
  | [line] => [line]
  | line :: _ :: _ => [if endsWith ['\r', '\n'] line then ['\r', '\n'] else ['\n']]

-- Squeezes every run of blank lines. `run` holds the blank lines since the last other line.
def squeezeFrom (run : List (List Char)) : List (List Char) → List (List Char)
  | [] => squeezeRun run
  | line :: rest =>
    if isBlankLine line then squeezeFrom (run ++ [line]) rest
    else squeezeRun run ++ line :: squeezeFrom [] rest

def squeezeLines (lines : List (List Char)) : List (List Char) :=
  squeezeFrom [] lines

-- The text with every run of two or more blank lines replaced by one empty line.
def collapseBlankLines (text : List Char) : List Char :=
  (squeezeLines (lines text)).flatten

theorem flatten_lines (text : List Char) : (lines text).flatten = text := by
  induction text with
  | nil => rfl
  | cons c rest ih =>
    rw [lines]
    split
    · simp [ih]
    · split
      · next h => simp_all
      · next line more h => simp_all

end CodePanel.Upload
