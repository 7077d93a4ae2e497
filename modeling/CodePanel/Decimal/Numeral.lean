import CodePanel.Decimal.Power

namespace CodePanel.Decimal

-- A spelled number. The digits of the exponent come with whether its sign is a minus.
structure Numeral where
  negative : Bool
  whole : List Char
  fraction : List Char
  exponent : Option (Bool × List Char)
deriving DecidableEq

-- The number that a row of decimal digits spells.
def digitsValue (digits : List Char) : Nat :=
  digits.foldl (fun value digit => 10 * value + (digit.toNat - '0'.toNat)) 0

-- The digits at the front of a text, and what follows them.
def spanDigits (text : List Char) : List Char × List Char :=
  (text.takeWhile Char.isDigit, text.dropWhile Char.isDigit)

-- Ends a numeral: an exponent with at least one digit, or none at all.
def readExponent : List Char → Option (Option (Bool × List Char) × List Char)
  | mark :: rest =>
    if mark = 'e' ∨ mark = 'E' then
      let signed : Bool × List Char := match rest with
        | '-' :: digits => (true, digits)
        | '+' :: digits => (false, digits)
        | digits => (false, digits)
      let (digits, rest) := spanDigits signed.2
      if digits.isEmpty then none else some (some (signed.1, digits), rest)
    else some (none, mark :: rest)
  | [] => some (none, [])

def signedValue (negative : Bool) (magnitude : Float) : Float :=
  if negative then -magnitude else magnitude

def infinity : Float := 1.0 / 0.0

-- The binary number nearest to `coefficient * 10 ^ exponent`. Binary numbers end well before
-- 10 ^ 400 and start well after 10 ^ (-400), so beyond that the answer is known at once.
def nearest (coefficient : Nat) (exponent : Int) : Float :=
  let size := (Nat.toDigits 10 coefficient).length + exponent
  if coefficient = 0 then 0.0
  else if 400 < size then infinity
  else if size < -400 then 0.0
  else if exponent < 0 then Float.ofScientific coefficient true exponent.natAbs
  else Float.ofScientific coefficient false exponent.natAbs

def Numeral.power (numeral : Numeral) : Int :=
  match numeral.exponent with
  | none => 0
  | some (true, digits) => -(digitsValue digits : Int)
  | some (false, digits) => digitsValue digits

-- The binary number nearest to what the numeral spells.
def Numeral.toFloat (numeral : Numeral) : Float :=
  signedValue numeral.negative <|
    nearest (digitsValue (numeral.whole ++ numeral.fraction))
      (numeral.power - numeral.fraction.length)

-- Takes digits into a 64-bit number as long as it fits, and gives back the digits left over.
def absorb (value : Nat) : List Char → Nat × List Char
  | [] => (value, [])
  | digit :: rest =>
    let next := 10 * value + (digit.toNat - '0'.toNat)
    if next < twoTo 64 then absorb next rest else (value, digit :: rest)

-- Scales by a power of ten. Powers beyond 10 ^ 308 are no binary numbers: one upwards is out of
-- range, one downwards is taken in two steps, and a third step would always reach zero.
def scale? (value : Float) (exponent : Int) : Option Float :=
  let size := exponent.natAbs
  if 0 ≤ exponent then
    if size ≤ 308 then
      let scaled := value * tenToFloat size
      if scaled.isInf then none else some scaled
    else if value == 0.0 then some value else none
  else if size ≤ 308 then some (value / tenToFloat size)
  else if size ≤ 616 then some (value / tenToFloat 308 / tenToFloat (size - 308))
  else some 0.0

-- Reads the leading digits as one 64-bit number and then scales it once, rounding at both steps.
-- Whole digits that did not fit count as powers of ten, digits of the fraction are left off.
-- A number too large for a binary number is refused.
def Numeral.scaled? (numeral : Numeral) : Option Float :=
  let (whole, wholeLeft) := absorb 0 numeral.whole
  let (significand, fractionLeft) := absorb whole numeral.fraction
  let shift : Int := wholeLeft.length - (numeral.fraction.length - fractionLeft.length)
  let magnitude :=
    if numeral.power.natAbs < twoTo 31 then scale? (Float.ofNat significand) (numeral.power + shift)
    else if significand = 0 ∨ numeral.power < 0 then some 0.0
    else none
  magnitude.map (signedValue numeral.negative)

def Numeral.isInteger (numeral : Numeral) : Bool :=
  numeral.fraction.isEmpty && numeral.exponent.isNone

-- The whole number that the numeral spells, if it is spelled without fraction and exponent.
def Numeral.toInt? (numeral : Numeral) : Option Int :=
  if numeral.isInteger then
    let size : Int := digitsValue numeral.whole
    some (if numeral.negative then -size else size)
  else none

-- As above, without a sign.
def Numeral.toNat? (numeral : Numeral) : Option Nat :=
  if numeral.isInteger && !numeral.negative then some (digitsValue numeral.whole) else none

def Numeral.ofNat (n : Nat) : Numeral :=
  ⟨false, Nat.toDigits 10 n, [], none⟩

def Numeral.ofInt (n : Int) : Numeral :=
  ⟨n < 0, Nat.toDigits 10 n.natAbs, [], none⟩

-- The spelling itself.
def Numeral.write (numeral : Numeral) : List Char :=
  (if numeral.negative then ['-'] else []) ++ numeral.whole ++
  (if numeral.fraction.isEmpty then [] else '.' :: numeral.fraction) ++
  match numeral.exponent with
  | none => []
  | some (true, digits) => 'e' :: '-' :: digits
  | some (false, digits) => 'e' :: '+' :: digits

end CodePanel.Decimal
