import CodePanel.Decimal.Format
import CodePanel.Decimal.Reader
import CodePanel.Text.Space

namespace CodePanel.Fit

open CodePanel.Decimal CodePanel.Text

-- Leaves off the unit at the end, if it is there.
def dropUnit (text : List Char) : List Char :=
  match text.reverse with
  | 'x' :: 'p' :: rest => rest.reverse
  | _ => text

-- A number with or without its unit. White space may stand around the number.
def readLength? (text : String) : Option Float :=
  read? (trim (dropUnit (trim text.toList)))

def writeLength (length : Float) : String :=
  plainText length ++ "px"

end CodePanel.Fit
