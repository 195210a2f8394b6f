namespace ClassFormat

structure Decimal where
  digits : Nat
  exponent : Int
  deriving DecidableEq, Repr

namespace Decimal

structure FloatFormat where
  exponentBits : Nat
  fractionBits : Nat

def binary32 : FloatFormat := ⟨8, 23⟩
def binary64 : FloatFormat := ⟨11, 52⟩

/-- What the bits of a floating-point number stand for. `atBoundary` marks a number whose lower
neighbour is only half as far away as its upper one. -/
inductive FloatValue where
  | nan
  | infinite (negative : Bool)
  | finite (negative : Bool) (mantissa : Nat) (exponent : Int) (atBoundary : Bool)
  deriving DecidableEq

def FloatFormat.value (format : FloatFormat) (bits : Nat) : FloatValue :=
  let fraction := bits % Nat.pow 2 format.fractionBits
  let biased := bits / Nat.pow 2 format.fractionBits % Nat.pow 2 format.exponentBits
  let negative := bits / Nat.pow 2 (format.fractionBits + format.exponentBits) % 2 == 1
  let bias : Int := Nat.pow 2 (format.exponentBits - 1) - 1 + format.fractionBits
  if biased = Nat.pow 2 format.exponentBits - 1 then
    if fraction = 0 then .infinite negative else .nan
  else if biased = 0 then .finite negative fraction (1 - bias) false
  else .finite negative (Nat.pow 2 format.fractionBits + fraction) (biased - bias) (fraction = 0)

/-- A positive number with the ends of the interval of reals that round to it, all over one
denominator. -/
structure Interval where
  value : Nat
  low : Nat
  high : Nat
  denominator : Nat
  /-- Whether the ends themselves round to the number. -/
  closed : Bool

def interval (mantissa : Nat) (exponent : Int) (atBoundary : Bool) : Interval :=
  let scale := Nat.pow 2 (exponent - 2).toNat
  { value := 4 * mantissa * scale
    low := (4 * mantissa - if atBoundary then 1 else 2) * scale
    high := (4 * mantissa + 2) * scale
    denominator := Nat.pow 2 (2 - exponent).toNat
    closed := mantissa % 2 == 0 }

def Interval.contains (i : Interval) (digits : Nat) (exponent : Int) : Bool :=
  let point := digits * Nat.pow 10 exponent.toNat * i.denominator
  let low := i.low * Nat.pow 10 (-exponent).toNat
  let high := i.high * Nat.pow 10 (-exponent).toNat
  if i.closed then low ≤ point && point ≤ high else low < point && point < high

/-- The point chosen on the grid of multiples of `10 ^ exponent`, if one lies in the interval: of
two the nearer one, and the upper one of two equally near. -/
def Interval.pointAt? (i : Interval) (exponent : Int) : Option Nat :=
  let value := i.value * Nat.pow 10 (-exponent).toNat
  let step := Nat.pow 10 exponent.toNat * i.denominator
  let below := value / step
  match i.contains below exponent, i.contains (below + 1) exponent with
  | true, true => some (if 2 * (value % step) < step then below else below + 1)
  | true, false => some below
  | false, true => some (below + 1)
  | false, false => none

def Interval.firstPoint (i : Interval) : (grids : Nat) → (exponent : Int) → Decimal
  | 0, exponent =>
    let step := Nat.pow 10 exponent.toNat * i.denominator
    ⟨i.value * Nat.pow 10 (-exponent).toNat / step, exponent⟩
  | grids + 1, exponent =>
    match i.pointAt? exponent with
    | some digits => ⟨digits, exponent⟩
    | none => i.firstPoint grids (exponent - 1)

/-- The shortest decimal for a positive number. The coarsest grid tried lies above the interval, and
the number itself is a point of the grid `10 ^ exponent` if that is fractional. -/
def shortest (mantissa : Nat) (exponent : Int) (atBoundary : Bool) : Decimal :=
  let i := interval mantissa exponent atBoundary
  let coarsest := (Nat.toDigits 10 (i.high / i.denominator)).length
  i.firstPoint (coarsest + (-exponent).toNat) coarsest

end Decimal

end ClassFormat
