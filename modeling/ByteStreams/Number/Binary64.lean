/-!
The decimal text of 64-bit floating-point numbers.

A number is decoded into a significand and a power of two, and all further work is
exact arithmetic on natural numbers. Two texts are made of it: one with a fixed
number of places, rounded to the nearest and to the even one of two, and the
shortest one that reads back as the same number.
-/

namespace ByteStreams

structure Binary64 where
  bits : UInt64
deriving DecidableEq, Repr

namespace Binary64

inductive View
  | nan
  | infinite (negative : Bool)
  /-- `significand * 2 ^ exponent`, and the sign. -/
  | finite (negative : Bool) (significand : Nat) (exponent : Int)
deriving DecidableEq, Repr

def view (number : Binary64) : View :=
  let bits := number.bits.toNat
  let negative := decide (Nat.pow 2 63 ≤ bits)
  let biased : Nat := bits / Nat.pow 2 52 % Nat.pow 2 11
  let fraction : Nat := bits % Nat.pow 2 52
  if biased = 2047 then
    if fraction = 0 then .infinite negative else .nan
  else if biased = 0 then
    .finite negative fraction (-1074)
  else
    .finite negative (fraction + Nat.pow 2 52) ((biased : Int) - 1075)

def ofFloat (value : Float) : Binary64 := ⟨value.toBits⟩

example : view ⟨0x4004000000000000⟩ = .finite false 5629499534213120 (-51) := by
  decide +kernel

/-! ## Fixed places -/

/-- The natural number nearest to a fraction; of two equally near, the even one. -/
def roundEven (numerator denominator : Nat) : Nat :=
  let quotient := numerator / denominator
  let twice := 2 * (numerator % denominator)
  if twice < denominator then quotient
  else if denominator < twice then quotient + 1
  else quotient + quotient % 2

example : roundEven 25 10 = 2 ∧ roundEven 35 10 = 4 ∧ roundEven 26 10 = 3 := by decide

def placed (places units : Nat) : String :=
  let digits := Nat.toDigits 10 (units % Nat.pow 10 places)
  let zeros := List.replicate (places - digits.length) '0'
  toString (units / Nat.pow 10 places) ++ "." ++ String.ofList (zeros ++ digits)

def fixed (places : Nat) (number : Binary64) : String :=
  match number.view with
  | .nan => "NaN"
  | .infinite negative => if negative then "-inf" else "inf"
  | .finite negative significand exponent =>
      let units := roundEven (significand * Nat.pow 2 exponent.toNat * Nat.pow 10 places)
        (Nat.pow 2 (-exponent).toNat)
      (if negative then "-" else "") ++ placed places units

example : fixed 1 ⟨0x3FD0000000000000⟩ = "0.2" := by decide +kernel

example : fixed 3 ⟨0xBFE8000000000000⟩ = "-0.750" := by decide +kernel

/-! ## Shortest text -/

/-- The decimal `digits * 10 ^ scale`. -/
structure Decimal where
  digits : Nat
  scale : Int
deriving DecidableEq, Repr

/-- The least power of ten that is above `numerator / denominator`, as an exponent,
if it is among the next `room` powers from `exponent` on. -/
def powerAbove (numerator denominator : Nat) (exponent : Int) : (room : Nat) → Int
  | 0 => exponent
  | room + 1 =>
      if numerator * Nat.pow 10 (-exponent).toNat < denominator * Nat.pow 10 exponent.toNat then
        exponent
      else
        powerAbove numerator denominator (exponent + 1) room

/-- The numbers that are read as a given one: those between two bounds, in units of
`2 ^ exponent / 4`, the bounds themselves only if the significand is even. -/
structure Basin where
  low : Nat
  middle : Nat
  high : Nat
  closed : Bool
  exponent : Int

/-- The numbers that are read as `significand * 2 ^ exponent`. Below a power of two
they are half as wide. -/
def basin (significand : Nat) (exponent : Int) : Basin :=
  let narrow := significand = Nat.pow 2 52 ∧ -1074 < exponent
  { low := 4 * significand - (if narrow then 1 else 2)
    middle := 4 * significand
    high := 4 * significand + 2
    closed := significand % 2 = 0
    exponent := exponent - 2 }

namespace Basin

/-- The denominator under which multiples of `10 ^ scale` and the numbers of a basin
are both whole. -/
def denominator (basin : Basin) (scale : Int) : Nat :=
  Nat.pow 2 (-basin.exponent).toNat * Nat.pow 10 scale.toNat

/-- A number of a basin over that denominator, in units of `10 ^ scale`. -/
def numerator (basin : Basin) (scale : Int) (number : Nat) : Nat :=
  number * Nat.pow 2 basin.exponent.toNat * Nat.pow 10 (-scale).toNat

def contains (basin : Basin) (scale : Int) (digits : Nat) : Bool :=
  let point := digits * basin.denominator scale
  let low := basin.numerator scale basin.low
  let high := basin.numerator scale basin.high
  if basin.closed then low ≤ point && point ≤ high else low < point && point < high

/-- The decimal in units of `10 ^ scale` that is in a basin and nearest to its
middle, if there is one. -/
def nearest? (basin : Basin) (scale : Int) : Option Decimal :=
  let below := basin.numerator scale basin.middle / basin.denominator scale
  match basin.contains scale below, basin.contains scale (below + 1) with
  | true, true =>
      some ⟨roundEven (basin.numerator scale basin.middle) (basin.denominator scale), scale⟩
  | true, false => some ⟨below, scale⟩
  | false, true => some ⟨below + 1, scale⟩
  | false, false => none

def shortestFrom (basin : Basin) (scale : Int) : (room : Nat) → Decimal
  | 0 => ⟨0, 0⟩
  | room + 1 =>
      match basin.nearest? scale with
      | some decimal => decimal
      | none => basin.shortestFrom (scale - 1) room

end Basin

/-- The decimal with the fewest digits that is read as `significand * 2 ^ exponent`;
17 digits always suffice. A number just below a power of ten may be read from that
power, which then has one digit too many. -/
def shortestDecimal (significand : Nat) (exponent : Int) : Decimal :=
  let top :=
    powerAbove (significand * Nat.pow 2 exponent.toNat) (Nat.pow 2 (-exponent).toNat) (-324) 640
  let decimal := (basin significand exponent).shortestFrom (top - 1) 18
  if decimal.digits = 10 then ⟨1, decimal.scale + 1⟩ else decimal

/-- A decimal as text: positional from `10 ^ -5` to below `10 ^ 16`, always with a
point there, and with an exponent otherwise. -/
def Decimal.text (decimal : Decimal) : String :=
  let digits := Nat.toDigits 10 decimal.digits
  let top := digits.length + decimal.scale
  let zeros (count : Int) := List.replicate count.toNat '0'
  if 0 ≤ decimal.scale ∧ top ≤ 16 then
    String.ofList (digits ++ zeros decimal.scale) ++ ".0"
  else if 0 < top ∧ top ≤ 16 then
    String.ofList (digits.take top.toNat) ++ "." ++ String.ofList (digits.drop top.toNat)
  else if -5 < top ∧ top ≤ 0 then
    "0." ++ String.ofList (zeros (-top) ++ digits)
  else
    let mantissa := if digits.length = 1 then digits else digits.take 1 ++ '.' :: digits.drop 1
    String.ofList mantissa ++ "e" ++ toString (top - 1)

def shortest? (number : Binary64) : Option String :=
  match number.view with
  | .nan | .infinite _ => none
  | .finite negative significand exponent =>
      let magnitude :=
        if significand = 0 then "0.0" else (shortestDecimal significand exponent).text
      some ((if negative then "-" else "") ++ magnitude)

example : shortest? ⟨0x3FB999999999999A⟩ = some "0.1" := by decide +kernel

example : shortest? ⟨0x3FD3333333333334⟩ = some "0.30000000000000004" := by
  decide +kernel

end Binary64

end ByteStreams
