import CodePanel.Proofs.Lexical.Bytes

namespace CodePanel.Source

def isSmall (c : Char) : Bool :=
  'a' ≤ c && c ≤ 'z'

def isCapital (c : Char) : Bool :=
  'A' ≤ c && c ≤ 'Z'

def isDecimal (c : Char) : Bool :=
  '0' ≤ c && c ≤ '9'

def inWord (c : Char) : Bool :=
  isSmall c || isCapital c || isDecimal c || c == '_'

def opensName (c : Char) : Bool :=
  isSmall c || isCapital c || c == '_'

-- The character in front of a position.
def charBefore (source : List Char) : Nat → Option Char
  | 0 => none
  | i + 1 => source[i]?

-- The characters from one position up to another.
def between (source : List Char) (i j : Nat) : List Char :=
  (source.drop i).take (j - i)

def wordAt (source : List Char) (k : Nat) : Bool :=
  source[k]?.any inWord

-- A line ends at `\n`, at `\r\n`, or with the text.
def EndsLine (source : List Char) (k : Nat) : Prop :=
  source[k]? = some '\n' ∨ (source[k]? = some '\r' ∧ source[k + 1]? = some '\n') ∨
    k = source.length

-- The line from `a` up to its terminator at `e`.
structure IsLine (source : List Char) (a e : Nat) : Prop where
  start : a = 0 ∨ charBefore source a = some '\n'
  le : a ≤ e
  inside : ∀ k, a ≤ k → k < e → ¬EndsLine source k
  stop : EndsLine source e

def SlashesAt (source : List Char) (k : Nat) : Prop :=
  source[k]? = some '/' ∧ source[k + 1]? = some '/'

-- A `\n`, together with a `\r` in front of it.
def IsBreak (source : List Char) (i j : Nat) : Prop :=
  ∃ n, source[n]? = some '\n' ∧ j = n + 1 ∧
    i = if charBefore source n = some '\r' then n - 1 else n

-- From the first `//` of a line up to the end of the line.
def IsComment (source : List Char) (i j : Nat) : Prop :=
  ∃ a, IsLine source a j ∧ a ≤ i ∧ i < j ∧ SlashesAt source i ∧
    ∀ k, a ≤ k → k < i → ¬SlashesAt source k

-- A position on a line that lies in front of the line's comment.
def IsCode (source : List Char) (k : Nat) : Prop :=
  ∃ a e, IsLine source a e ∧ a ≤ k ∧ k < e ∧ ∀ m, a ≤ m → m ≤ k → ¬SlashesAt source m

-- A run of word characters that cannot be made longer on either side.
structure IsRun (source : List Char) (i j : Nat) : Prop where
  lt : i < j
  inside : ∀ k, i ≤ k → k < j → wordAt source k = true
  before : (charBefore source i).any inWord = false
  behind : wordAt source j = false

-- The assembler does not tell ASCII capitals from small letters.
def spelledLike (word : List Char) (name : String) : Bool :=
  word.map Char.toLower == name.toList

def isInstruction (word : List Char) : Bool :=
  ["add", "sub", "mul", "div", "jmp", "jmpc", "mov", "stac_g", "stac_s", "exec", "return",
    "cmp_call", "fwd", "rot", "brk", "bttry", "inven", "drop", "item", "out", "noop"].any
      (spelledLike word)

structure Span where
  kind : Kind
  start : Nat
  stop : Nat
deriving DecidableEq

-- What a sigil in front of the run from `i` to `j` makes of it.
def sigilKind? (source : List Char) (i j : Nat) : Option Kind :=
  let word := between source i j
  let sigil := charBefore source i
  if source[i]?.any opensName ∧ sigil = some '$' then some .variable
  else if source[i]?.any opensName ∧ sigil = some '@' then some .jump
  else if (1 ≤ word.length ∧ word.length ≤ 3 ∧ word.all isSmall) ∧ sigil = some '%' ∧
      (charBefore source (i - 1)).any inWord = false then some .register
  else none

-- A run that belongs to no sigil. A colon behind it makes it a label and belongs to it.
def bareSpan? (source : List Char) (i j : Nat) : Option Span :=
  let word := between source i j
  if source[i]?.any isDecimal then
    if word.length ≤ 3 ∧ word.all isDecimal then some ⟨.constant, i, j⟩ else none
  else if source[j]? = some ':' then some ⟨.label, i, j + 1⟩
  else if spelledLike word "let" then some ⟨.declaration, i, j⟩
  else if isInstruction word then some ⟨.instruction, i, j⟩
  else none

-- What becomes of the run from `i` to `j`. A sigil that makes something of it belongs to it.
def runSpan? (source : List Char) (i j : Nat) : Option Span :=
  match sigilKind? source i j with
  | some kind => some ⟨kind, i - 1, j⟩
  | none => bareSpan? source i j

-- The pieces of a text that are not plain, and no others, said position by position. Positions
-- count characters, and nothing that the scanner knows is used to say it.
inductive Described (source : List Char) : Span → Prop where
  | lineBreak : IsBreak source i j → Described source ⟨.lineBreak, i, j⟩
  | comment : IsComment source i j → Described source ⟨.comment, i, j⟩
  | run : IsRun source i j → IsCode source i → runSpan? source i j = some span →
      Described source span

-- The number of bytes in front of a position.
def offset (source : List Char) (i : Nat) : Nat :=
  byteLength (source.take i)

end CodePanel.Source
