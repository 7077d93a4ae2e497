import CodePanel.Decimal.Power

namespace CodePanel.Decimal

-- `coefficient * 10 ^ exponent`: of the decimals with the fewest digits that read back as a binary
-- number, the nearest to it.
structure Shortest where
  coefficient : Nat
  exponent : Int
deriving DecidableEq

-- Which of two decimals to take when the number lies exactly halfway between them.
inductive Half where
  | up
  | toEven
deriving DecidableEq

-- `mantissa * 2 ^ exponent`. A number is narrow below if its lower neighbour is only half as far
-- away as its upper one, as it is for powers of two.
structure Binary where
  mantissa : Nat
  exponent : Int
  narrowBelow : Bool
deriving DecidableEq

-- Reads the sixty-three bits of a magnitude.
def Binary.ofBits (bits : Nat) : Binary :=
  let field : Nat := bits / twoTo 52 % twoTo 11
  let fraction : Nat := bits % twoTo 52
  if field = 0 then ⟨fraction, -1074, false⟩
  else ⟨twoTo 52 + fraction, (field : Int) - 1075, fraction = 0 ∧ 1 < field⟩

-- A number between the two ends of the interval of numbers that read as it. All three are
-- fractions with the same denominator. The ends belong to the interval if `closed`.
structure Interval where
  low : Nat
  value : Nat
  high : Nat
  denominator : Nat
  closed : Bool

def Binary.interval (b : Binary) : Interval :=
  let up := twoTo (b.exponent - 2).toNat
  let below := if b.narrowBelow then 1 else 2
  { low := (4 * b.mantissa - below) * up
    value := 4 * b.mantissa * up
    high := (4 * b.mantissa + 2) * up
    denominator := twoTo (2 - b.exponent).toNat
    closed := b.mantissa % 2 = 0 }

-- The number of decimal digits, none for zero.
def digitCount (n : Nat) : Nat :=
  if n = 0 then 0 else (Nat.toDigits 10 n).length

-- The exponent of ten of the leading digit.
def Interval.leading (i : Interval) : Int :=
  if i.denominator ≤ i.value then digitCount (i.value / i.denominator) - 1
  else -digitCount ((i.denominator - 1) / i.value)

-- The multiple of `10 ^ exponent` in the interval that is nearest to the value, if there is one.
-- The two multiples around the value are the only ones to look at.
def Interval.nearest? (half : Half) (i : Interval) (exponent : Int) : Option Nat :=
  let down := tenTo (-exponent).toNat
  let unit := i.denominator * tenTo exponent.toNat
  let floor := i.value * down / unit
  let inside (c : Nat) : Bool :=
    if i.closed then i.low * down ≤ c * unit && c * unit ≤ i.high * down
    else i.low * down < c * unit && c * unit < i.high * down
  match inside floor, inside (floor + 1) with
  | false, false => none
  | true, false => some floor
  | false, true => some (floor + 1)
  | true, true =>
    match compare (2 * (i.value * down)) ((2 * floor + 1) * unit) with
    | .lt => some floor
    | .gt => some (floor + 1)
    | .eq => match half with
      | .up => some (floor + 1)
      | .toEven => some (if floor % 2 = 0 then floor else floor + 1)

-- Moves zeros at the end of the coefficient into the exponent.
def Shortest.strip (coefficient : Nat) (exponent : Int) : Shortest :=
  if coefficient ≠ 0 ∧ coefficient % 10 = 0 then strip (coefficient / 10) (exponent + 1)
  else ⟨coefficient, exponent⟩
termination_by coefficient
decreasing_by omega

-- Tries one digit, then two, and so on. Seventeen digits always suffice.
def Binary.shortest (half : Half) (b : Binary) : Shortest :=
  if b.mantissa = 0 then ⟨0, 0⟩
  else
    let interval := b.interval
    let leading := interval.leading
    let attempt (count : Nat) : Option Shortest :=
      let exponent := leading - count
      (interval.nearest? half exponent).map (Shortest.strip · exponent)
    ((List.range 17).findSome? attempt).getD ⟨0, 0⟩

end CodePanel.Decimal
