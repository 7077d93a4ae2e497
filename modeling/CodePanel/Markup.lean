import CodePanel.Source.Scanner

namespace CodePanel.Markup

open CodePanel.Source

-- Highlighted text as markup. Each highlighted piece is one flat span with a style class, a line
-- break is `<br>`, and all text is escaped, so the result can be shown as it is.

-- How the markup is written. The hint puts an optional line break behind every space. The stem
-- is put in front of every style class.
structure Options where
  spaceBreakHint : Bool := false
  classStem : Option String := none
deriving DecidableEq

-- Ampersands and angle brackets are written as entities.
def escapeChar (c : Char) : List Char :=
  if c = '&' then "&amp;".toList
  else if c = '<' then "&lt;".toList
  else if c = '>' then "&gt;".toList
  else [c]

def escape (text : List Char) : List Char :=
  text.flatMap escapeChar

-- With the hint, a text is written in the parts between its spaces.
def writeText (options : Options) (text : List Char) : List Char :=
  if options.spaceBreakHint then
    match text.splitOn ' ' with
    | [] => []
    | first :: parts => escape first ++ parts.flatMap fun part => " <wbr>".toList ++ escape part
  else escape text

def Options.className (options : Options) (styleClass : String) : List Char :=
  (options.classStem.getD "").toList ++ styleClass.toList

def openSpan (options : Options) (styleClass : String) : List Char :=
  "<span class=\"".toList ++ options.className styleClass ++ "\">".toList

def writeLexeme (options : Options) (lexeme : Lexeme) : List Char :=
  match lexeme.kind, lexeme.kind.styleClass with
  | .lineBreak, _ => "<br>".toList
  | _, some styleClass =>
    openSpan options styleClass ++ writeText options lexeme.text ++ "</span>".toList
  | _, none => writeText options lexeme.text

def writeLexemes (options : Options) (lexemes : List Lexeme) : List Char :=
  lexemes.flatMap (writeLexeme options)

-- The markup of any list of tokens over a source, whether or not it covers the source.
def renderTokens (options : Options) (source : List Char) (tokens : List Token) : List Char :=
  writeLexemes options (tokens.map (Token.lexeme source))

def render (options : Options) (source : List Char) : List Char :=
  renderTokens options source (tokenize source)

-- The markup of a text as a string.
def highlight (options : Options) (text : String) : String :=
  String.ofList (render options text.toList)

end CodePanel.Markup
