import CodePanel.Decimal.Numeral
import CodePanel.Decimal.Shortest

namespace CodePanel.Decimal

-- A format says which way halves go, which leading exponents are spelled without a power of ten,
-- and whether a whole number keeps a zero behind the point.
structure Format where
  half : Half
  isPlain : Int → Bool
  pointZero : Bool

-- Puts the point behind `position` digits, which may lie outside the digits.
def placePoint (digits : List Char) (position : Int) : List Char × List Char :=
  if position ≤ 0 then (['0'], List.replicate (-position).toNat '0' ++ digits)
  else if digits.length ≤ position then
    (digits ++ List.replicate (position - digits.length).toNat '0', [])
  else (digits.take position.toNat, digits.drop position.toNat)

def Format.layOut (format : Format) (negative : Bool) (number : Shortest) : Numeral :=
  let digits := Nat.toDigits 10 number.coefficient
  let leading := digits.length - 1 + number.exponent
  if format.isPlain leading then
    let (whole, fraction) := placePoint digits (leading + 1)
    ⟨negative, whole, if fraction.isEmpty && format.pointZero then ['0'] else fraction, none⟩
  else
    let (whole, fraction) := placePoint digits 1
    ⟨negative, whole, fraction, some (leading < 0, Nat.toDigits 10 leading.natAbs)⟩

-- The numeral of a finite number. Infinities and NaN have none.
def Format.numeral? (format : Format) (x : Float) : Option Numeral :=
  if x.isFinite then
    let bits := x.toBits.toNat
    let magnitude := Binary.ofBits (bits % twoTo 63)
    some (format.layOut (twoTo 63 ≤ bits) (magnitude.shortest format.half))
  else none

-- Lengths never have an exponent.
def plainFormat : Format where
  half := .up
  isPlain _ := true
  pointZero := false

-- The text of any number in plain format.
def plainText (x : Float) : String :=
  match plainFormat.numeral? x with
  | some numeral => String.ofList numeral.write
  | none => if x.isNaN then "NaN" else if x < 0.0 then "-inf" else "inf"

end CodePanel.Decimal
