import CodePanel.Source.Token
import CodePanel.Source.Word

namespace CodePanel.Source

-- The bytes of a text in UTF-8.
def utf8 (text : List Char) : List UInt8 :=
  text.flatMap String.utf8EncodeChar

-- A source with its bytes. The scanner goes over the bytes. It looks at a byte as if it
-- were a character, and goes back to the source where it needs a word or a whole character.
structure Scanner where
  source : List Char
  bytes : Array UInt8
  encoded : bytes.toList = utf8 source

namespace Scanner

def ofSource (source : List Char) : Scanner :=
  ⟨source, (utf8 source).toArray, rfl⟩

variable (scanner : Scanner)

def byte? (pos : Nat) : Option Char :=
  scanner.bytes[pos]?.map Char.ofUInt8

-- The bytes between two offsets.
def byteSlice? (start stop : Nat) : Option (List UInt8) :=
  if start ≤ stop ∧ stop ≤ scanner.bytes.size then
    some ((scanner.bytes.toList.drop start).take (stop - start))
  else none

-- The end of the run of word characters that starts at an offset.
def wordEnd (pos : Nat) : Nat :=
  if h : pos < scanner.bytes.size then
    if isWordChar (.ofUInt8 scanner.bytes[pos]) then wordEnd (pos + 1) else pos
  else pos
termination_by scanner.bytes.size - pos

-- The offset behind the character that starts at an offset.
def nextBoundary? (pos : Nat) : Option Nat :=
  (splitBytes? pos scanner.source).map fun (_, back) =>
    pos + (back.head?.map Char.utf8Size).getD 1

-- The end of the comment that starts at an offset. The end of the line is no part of it, nor is
-- the `\r` of a `\r\n`.
def commentEnd? (start : Nat) : Option Nat := do
  let comment ← scanner.byteSlice? start scanner.bytes.size
  match comment.findIdx? (Char.ofUInt8 · == '\n') with
  | some length =>
    let newline := start + length
    if start + 2 < newline ∧ scanner.byte? (newline - 1) = some '\r' then some (newline - 1)
    else some newline
  | none => some scanner.bytes.size

-- A word is a constant, a label with its colon, or what the assembler knows it as. A word that
-- starts with a digit is a constant if it is a number of at most three digits.
def scanWord? (start : Nat) : Option (Kind × Nat) := do
  let stop := scanner.wordEnd start
  let word ← slice? scanner.source start stop
  let first ← scanner.byte? start
  if first.isDigit then
    let digits := utf8 word
    let isConstant := digits.length ≤ 3 && digits.all (Char.ofUInt8 · |>.isDigit)
    some (if isConstant then .constant else .text, stop)
  else if scanner.byte? stop = some ':' then some (.label, stop + 1)
  else some (wordKind word, stop)

-- Whether there is a word character right in front of an offset.
def isGlued? (start : Nat) : Option Bool :=
  if start = 0 then some false else (scanner.byte? (start - 1)).map isWordChar

-- A `%` that does not touch a word before it opens a register name of one to three small letters.
def scanRegister? (start : Nat) : Option (Kind × Nat) := do
  if ← scanner.isGlued? start then some (.text, start + 1)
  else
    let stop := scanner.wordEnd (start + 1)
    let name ← scanner.byteSlice? (start + 1) stop
    if 1 ≤ name.length && name.length ≤ 3 && name.all (Char.ofUInt8 · |>.isLower) then
      some (.register, stop)
    else some (.text, start + 1)

-- A sigil claims the identifier behind it, and stands alone as text if there is none.
def scanSigil (start : Nat) (kind : Kind) : Kind × Nat :=
  if (scanner.byte? (start + 1)).any isIdentStart then (kind, scanner.wordEnd (start + 1))
  else (.text, start + 1)

-- The kind of the piece that starts at an offset, and where it stops. There is none behind the end
-- of the source, or if a slice would cut a character.
def scanAt? (start : Nat) : Option (Kind × Nat) := do
  let first ← scanner.byte? start
  if first = '\n' then some (.lineBreak, start + 1)
  else if first = '\r' ∧ scanner.byte? (start + 1) = some '\n' then some (.lineBreak, start + 2)
  else if first = '/' ∧ scanner.byte? (start + 1) = some '/' then
    (scanner.commentEnd? start).map (.comment, ·)
  else if first = '%' then scanner.scanRegister? start
  else if first = '$' then some (scanner.scanSigil start .variable)
  else if first = '@' then some (scanner.scanSigil start .jump)
  else if isWordChar first then scanner.scanWord? start
  else (scanner.nextBoundary? start).map (.text, ·)

section Progress

variable {scanner : Scanner}

theorem lt_size_of_byte {pos : Nat} {c : Char} (h : scanner.byte? pos = some c) :
    pos < scanner.bytes.size := by
  obtain ⟨byte, hbyte, -⟩ := Option.map_eq_some_iff.mp h
  exact (Array.getElem?_eq_some_iff.mp hbyte).1

theorem le_wordEnd (pos : Nat) : pos ≤ scanner.wordEnd pos := by
  fun_induction wordEnd scanner pos with
  | case1 pos hlt hword ih => omega
  | case2 pos hlt hword => exact Nat.le_refl pos
  | case3 pos hle => exact Nat.le_refl pos

theorem lt_wordEnd {pos : Nat} {c : Char} (h : scanner.byte? pos = some c)
    (hword : isWordChar c = true) : pos < scanner.wordEnd pos := by
  have hlt := lt_size_of_byte h
  have hbyte : Char.ofUInt8 scanner.bytes[pos] = c := by
    simpa [byte?, Array.getElem?_eq_getElem hlt] using h
  rw [wordEnd, dif_pos hlt, hbyte, if_pos hword]
  exact le_wordEnd (pos + 1)

-- A comment does not start with the end of a line.
theorem lt_commentEnd {start stop : Nat} (hfirst : scanner.byte? start = some '/')
    (h : scanner.commentEnd? start = some stop) : start < stop := by
  have hlt := lt_size_of_byte hfirst
  simp only [commentEnd?, byteSlice?, Nat.le_of_lt hlt, Nat.le_refl, and_self, if_true,
    Option.bind_eq_bind, Option.bind_some] at h
  split at h
  · next length hfind =>
    have hlength : length ≠ 0 := by
      rintro rfl
      obtain ⟨hzero, hnewline, -⟩ := List.findIdx?_eq_some_iff_getElem.mp hfind
      have hbyte : Char.ofUInt8 scanner.bytes[start] = '/' := by
        simpa [byte?, Array.getElem?_eq_getElem hlt] using hfirst
      simp [hbyte] at hnewline
    split at h
    · cases h
      omega
    · cases h
      omega
  · cases h
    exact hlt

theorem lt_scanRegister {start stop : Nat} {kind : Kind}
    (h : scanner.scanRegister? start = some (kind, stop)) : start < stop := by
  have hword : start + 1 ≤ scanner.wordEnd (start + 1) := le_wordEnd (start + 1)
  simp only [scanRegister?, Option.bind_eq_bind, Option.bind_eq_some_iff] at h
  obtain ⟨glued, -, h⟩ := h
  split at h
  · cases h
    exact Nat.lt_succ_self start
  · obtain ⟨name, -, h⟩ := Option.bind_eq_some_iff.mp h
    split at h
    · cases h
      exact hword
    · cases h
      exact Nat.lt_succ_self start

theorem lt_scanSigil {start stop : Nat} {claimed kind : Kind}
    (h : scanner.scanSigil start claimed = (kind, stop)) : start < stop := by
  rw [scanSigil] at h
  split at h
  · cases h
    exact le_wordEnd (start + 1)
  · cases h
    exact Nat.lt_succ_self start

theorem lt_scanWord {start stop : Nat} {kind : Kind} {c : Char}
    (hbyte : scanner.byte? start = some c) (hword : isWordChar c = true)
    (h : scanner.scanWord? start = some (kind, stop)) : start < stop := by
  have hlt := lt_wordEnd hbyte hword
  simp only [scanWord?, hbyte, Option.bind_eq_bind, Option.bind_some,
    Option.bind_eq_some_iff] at h
  obtain ⟨word, -, h⟩ := h
  split at h
  · cases h
    exact hlt
  · split at h
    · cases h
      omega
    · cases h
      exact hlt

theorem lt_nextBoundary {pos next : Nat} (h : scanner.nextBoundary? pos = some next) :
    pos < next := by
  obtain ⟨⟨front, back⟩, -, rfl⟩ := Option.map_eq_some_iff.mp h
  cases back with
  | nil => exact Nat.lt_succ_self pos
  | cons c rest => exact Nat.lt_add_of_pos_right c.utf8Size_pos

-- Every step of the scan goes on.
theorem lt_of_scanAt {start stop : Nat} {kind : Kind}
    (h : scanner.scanAt? start = some (kind, stop)) : start < stop := by
  simp only [scanAt?, Option.bind_eq_bind, Option.bind_eq_some_iff] at h
  obtain ⟨first, hfirst, h⟩ := h
  split at h
  · cases h
    omega
  split at h
  · cases h
    omega
  split at h
  · next hslashes =>
    obtain ⟨end', hcomment, hstop⟩ := Option.map_eq_some_iff.mp h
    cases hstop
    exact lt_commentEnd (hslashes.1 ▸ hfirst) hcomment
  split at h
  · exact lt_scanRegister h
  split at h
  · exact lt_scanSigil (Option.some.inj h)
  split at h
  · exact lt_scanSigil (Option.some.inj h)
  split at h
  · next hword => exact lt_scanWord hfirst hword h
  · obtain ⟨next, hnext, hstop⟩ := Option.map_eq_some_iff.mp h
    cases hstop
    exact lt_nextBoundary hnext

end Progress

-- The pieces of a source from an offset on, each as a token.
def scan? (pos : Nat) : Option (List Token) :=
  if pos < scanner.bytes.size then
    match _h : scanner.scanAt? pos with
    | none => none
    | some (kind, stop) => (scan? stop).map (⟨kind, pos, stop⟩ :: ·)
  else some []
termination_by scanner.bytes.size - pos
decreasing_by
  have := lt_of_scanAt _h
  omega

end Scanner

-- Neighbouring tokens of plain text become one token. The last token so far comes first.
def pushToken (tokens : List Token) (token : Token) : List Token :=
  match tokens with
  | [] => [token]
  | last :: front =>
    if last.kind = .text ∧ token.kind = .text ∧ last.stop = token.start then
      { last with stop := token.stop } :: front
    else token :: last :: front

-- The tokens of a source, if the scan gets through it.
def tokenize? (source : List Char) : Option (List Token) :=
  ((Scanner.ofSource source).scan? 0).map fun tokens => (tokens.foldl pushToken []).reverse

-- The tokens of a source, in order and without gaps.
def tokenize (source : List Char) : List Token :=
  (tokenize? source).getD []

end CodePanel.Source
