import CodePanel.Decimal.Numeral

namespace CodePanel.Json

open CodePanel.Decimal

-- Numbers keep their spelling. A text may hold an escape for one half of a surrogate pair alone: it
-- is grammatical but no text, and is kept as `none`.
inductive Value where
  | null
  | bool (value : Bool)
  | number (numeral : Numeral)
  | string (text : Option String)
  | array (items : List Value)
  | object (fields : List (Option String × Value))

def Value.ofString (text : String) : Value :=
  .string (some text)

def Value.ofNat (n : Nat) : Value :=
  .number (.ofNat n)

def Value.ofInt (n : Int) : Value :=
  .number (.ofInt n)

-- An object from its fields, in order.
def Value.ofFields (fields : List (String × Value)) : Value :=
  .object (fields.map fun field => (some field.1, field.2))

-- A missing value is written as null.
def Value.ofOption (toValue : α → Value) : Option α → Value
  | none => .null
  | some a => toValue a

end CodePanel.Json
