import CodePanel.Json.Value
import CodePanel.Decimal.Format

namespace CodePanel.Json

open CodePanel.Decimal

-- The numbers of a JSON text keep a digit behind the point, and take an exponent when they are
-- very small or very large.
def numberFormat : Format where
  half := .toEven
  isPlain leading := -5 ≤ leading && leading < 16
  pointZero := true

-- A number that is not finite has no numeral and becomes null.
def Value.ofFloat (x : Float) : Value :=
  match numberFormat.numeral? x with
  | some numeral => .number numeral
  | none => .null

def Value.string? : Value → Option String
  | .string text => text
  | _ => none

def Value.bool? : Value → Option Bool
  | .bool value => some value
  | _ => none

def Value.float? : Value → Option Float
  | .number numeral => numeral.scaled?
  | _ => none

def Value.nat? : Value → Option Nat
  | .number numeral => numeral.toNat?
  | _ => none

def Value.int? : Value → Option Int
  | .number numeral => numeral.toInt?
  | _ => none

def Value.byte? (value : Value) : Option UInt8 :=
  match value.nat? with
  | some n => if n < 256 then some n.toUInt8 else none
  | none => none

def Value.list? (item? : Value → Option α) : Value → Option (List α)
  | .array items => items.mapM item?
  | _ => none

-- Null stands for a missing value.
def Value.nullable? (item? : Value → Option α) : Value → Option (Option α)
  | .null => some none
  | value => (item? value).map some

-- The value of a name among fields. A name may not be given twice.
def field? (fields : List (Option String × Value)) (name : String) : Option (Option Value) :=
  match fields.filter (·.1 == some name) with
  | [] => some none
  | [field] => some (some field.2)
  | _ => none

-- The values of a record's fields, in the order of the names. A record is an array of them in this
-- order, or an object, where fields of other names are passed over but every name has to be a text.
def Value.record? (names : List String) : Value → Option (List (Option Value))
  | .object fields => if fields.all (·.1.isSome) then names.mapM (field? fields) else none
  | .array items =>
    if items.length ≤ names.length then
      some (items.map some ++ List.replicate (names.length - items.length) none)
    else none
  | _ => none

-- A field that has to be there.
def required? (item? : Value → Option α) : Option Value → Option α
  | some value => item? value
  | none => none

-- A field that may be left out.
def optional? (fallback : α) (item? : Value → Option α) : Option Value → Option α
  | some value => item? value
  | none => some fallback

end CodePanel.Json
