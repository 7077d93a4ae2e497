import CodePanel.Markup

namespace CodePanel.Markup

open CodePanel.Source

-- A character of the text, or what stands between the angle brackets of a tag.
inductive Symbol where
  | char (c : Char)
  | tag (name : List Char)
deriving DecidableEq

-- What the reader is in the middle of, with what it has seen of it.
inductive Mode where
  | text
  | tag (seen : List Char)
  | entity (seen : List Char)

def entityChar? (name : List Char) : Option Char :=
  if name = "amp".toList then some '&'
  else if name = "lt".toList then some '<'
  else if name = "gt".toList then some '>'
  else none

-- Takes markup apart. There is nothing to be read from a tag or an entity that is not closed, from
-- an unknown entity, or from a `>` that closes nothing.
def symbols? : Mode → List Char → Option (List Symbol)
  | .text, [] => some []
  | .tag _, [] => none
  | .entity _, [] => none
  | .text, c :: rest =>
    if c = '<' then symbols? (.tag []) rest
    else if c = '&' then symbols? (.entity []) rest
    else if c = '>' then none
    else (symbols? .text rest).map (.char c :: ·)
  | .tag seen, c :: rest =>
    if c = '>' then (symbols? .text rest).map (.tag seen :: ·)
    else symbols? (.tag (seen ++ [c])) rest
  | .entity seen, c :: rest =>
    if c = ';' then (entityChar? seen).bind fun d => (symbols? .text rest).map (.char d :: ·)
    else symbols? (.entity (seen ++ [c])) rest

-- The tag that opens the span of a style class.
def spanTag (stem : List Char) (styleClass : String) : List Char :=
  "span class=\"".toList ++ (stem ++ styleClass.toList) ++ "\"".toList

def spanKind? (stem name : List Char) : Option Kind :=
  (rules.map Rule.kind).find? fun kind =>
    kind.styleClass.any fun styleClass => spanTag stem styleClass == name

-- Bare text is a lexeme if there is any.
def bareText (text : List Char) : List Lexeme :=
  if text = [] then [] else [⟨.text, text⟩]

-- A line break as it is read back.
def lineBreakMark : Lexeme := ⟨.lineBreak, ['\n']⟩

-- Puts symbols together. A span of the given kind may be open, and `held` is the text read since
-- the last tag. Spans hold nothing but text, and hints are dropped.
def assemble? (stem : List Char) : Option Kind → List Char → List Symbol → Option (List Lexeme)
  | none, held, [] => some (bareText held)
  | some _, _, [] => none
  | span, held, .char c :: rest => assemble? stem span (held ++ [c]) rest
  | none, held, .tag name :: rest =>
    if name = "wbr".toList then assemble? stem none held rest
    else if name = "br".toList then
      (assemble? stem none [] rest).map (bareText held ++ lineBreakMark :: ·)
    else (spanKind? stem name).bind fun kind =>
      (assemble? stem (some kind) [] rest).map (bareText held ++ ·)
  | some kind, held, .tag name :: rest =>
    if name = "wbr".toList then assemble? stem (some kind) held rest
    else if name = "/span".toList then (assemble? stem none [] rest).map (⟨kind, held⟩ :: ·)
    else none

-- The lexemes that markup shows.
def read? (stem markup : List Char) : Option (List Lexeme) :=
  (symbols? .text markup).bind (assemble? stem none [])

-- A symbol without markup.
def Symbol.plain : Symbol → List Char
  | .char c => [c]
  | .tag name => if name = "br".toList then ['\n'] else []

-- The text that is left when the markup is removed.
def plainText? (markup : List Char) : Option (List Char) :=
  (symbols? .text markup).map (·.flatMap Symbol.plain)

-- A text with `\n` for every `\r\n`.
def unifyBreaks : List Char → List Char
  | [] => []
  | '\r' :: '\n' :: rest => '\n' :: unifyBreaks rest
  | c :: rest => c :: unifyBreaks rest

-- A lexeme as it is read back. How a line break was written is not shown.
def marked (lexeme : Lexeme) : Lexeme :=
  if lexeme.kind = .lineBreak then lineBreakMark else lexeme

end CodePanel.Markup
