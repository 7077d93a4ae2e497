import CodePanel.Json.Value

namespace CodePanel.Json

open CodePanel.Decimal

def hexDigit (n : Nat) : Char :=
  Nat.digitChar (n % 16)

-- Quotes, backslashes and control characters are written as escapes, and nothing else is.
def escapeChar (c : Char) : List Char :=
  if c = '"' then ['\\', '"']
  else if c = '\\' then ['\\', '\\']
  else if c = '\x08' then ['\\', 'b']
  else if c = '\t' then ['\\', 't']
  else if c = '\n' then ['\\', 'n']
  else if c = '\x0c' then ['\\', 'f']
  else if c = '\r' then ['\\', 'r']
  else if c.toNat < 0x20 then
    ['\\', 'u', '0', '0', hexDigit (c.toNat / 16), hexDigit c.toNat]
  else [c]

def writeString (text : List Char) : List Char :=
  '"' :: (text.flatMap escapeChar ++ ['"'])

-- A string that is no text is written as a surrogate that stands alone.
def writeText : Option String → List Char
  | some text => writeString text.toList
  | none => "\"\\ud800\"".toList

mutual

def Value.write : Value → List Char
  | .null => "null".toList
  | .bool true => "true".toList
  | .bool false => "false".toList
  | .number numeral => numeral.write
  | .string text => writeText text
  | .array [] => ['[', ']']
  | .array (item :: rest) => '[' :: (item.write ++ writeItems rest)
  | .object [] => ['\x7b', '\x7d']
  | .object ((name, item) :: rest) =>
    '\x7b' :: (writeText name ++ ':' :: (item.write ++ writeFields rest))

def writeItems : List Value → List Char
  | [] => [']']
  | item :: rest => ',' :: (item.write ++ writeItems rest)

def writeFields : List (Option String × Value) → List Char
  | [] => ['\x7d']
  | (name, item) :: rest => ',' :: (writeText name ++ ':' :: (item.write ++ writeFields rest))

end

-- The compact spelling, with the fields of an object in their order.
def Value.toText (value : Value) : String :=
  String.ofList value.write

end CodePanel.Json
