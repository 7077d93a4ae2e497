import CodePanel.Text.Combining
import CodePanel.Text.Ignorable
import CodePanel.Text.Printable

namespace CodePanel.Text

-- A character by its code point, in as few hexadecimal digits as it takes.
def escapeCode (c : Char) : List Char :=
  "\\u\x7b".toList ++ Nat.toDigits 16 c.toNat ++ "\x7d".toList

-- Characters that would join the one before them or leave no trace do not show as themselves.
def showsAsItself (c : Char) : Bool :=
  isPrintable c && !isCombining c && !isIgnorable c

def quoteChar (c : Char) : List Char :=
  if c = '"' then "\\\"".toList
  else if c = '\\' then "\\\\".toList
  else if c = '\n' then "\\n".toList
  else if c = '\r' then "\\r".toList
  else if c = '\t' then "\\t".toList
  else if c.toNat = 0 then "\\0".toList
  else if showsAsItself c then [c]
  else escapeCode c

def quoted (text : String) : String :=
  String.ofList ('"' :: text.toList.flatMap quoteChar ++ ['"'])

end CodePanel.Text
