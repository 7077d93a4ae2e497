import CodePanel.Decimal.Numeral

namespace CodePanel.Decimal

-- At least one digit has to stand before or after the point, and nothing after the numeral.
def readNumeral? (negative : Bool) (text : List Char) : Option Numeral :=
  let (whole, rest) := spanDigits text
  let (fraction, rest) := match rest with
    | '.' :: rest => spanDigits rest
    | rest => ([], rest)
  if whole.isEmpty && fraction.isEmpty then none
  else match readExponent rest with
    | some (exponent, []) => some ⟨negative, whole, fraction, exponent⟩
    | _ => none

-- The magnitudes that have names, in any mixture of small and capital letters.
def named? (text : List Char) : Option Float :=
  let small := text.map Char.toLower
  if small = "inf".toList ∨ small = "infinity".toList then some infinity
  else if small = "nan".toList then some (0.0 / 0.0)
  else none

def readUnsigned? (negative : Bool) (text : List Char) : Option Float :=
  match named? text with
  | some magnitude => some (signedValue negative magnitude)
  | none => (readNumeral? negative text).map Numeral.toFloat

-- A number with an optional sign.
def read? : List Char → Option Float
  | '-' :: text => readUnsigned? true text
  | '+' :: text => readUnsigned? false text
  | text => readUnsigned? false text

end CodePanel.Decimal
