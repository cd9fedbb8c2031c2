/-
# Floating-point numbers of 64 bits

A configuration file may hold a floating-point number where none belongs, and the fault that
reports it quotes the number. So a decimal is read as the nearest number of 64 bits, and a
number is written with the fewest digits that read back as that number.

A finite number is an integer, its mantissa, times a power of two. Both directions compare
exact integers.

## Main definitions

* `Binary64`: the numbers.
* `Binary64.nearest`: the number nearest to a decimal, ties going to an even mantissa.
* `Binary64.shortestDigits`: the fewest digits that read back.
* `Binary64.text`: a number in positional notation, always with a decimal point.
-/

namespace SearchKeys

/-- A floating-point number of 64 bits. -/
inductive Binary64
  /-- The number `mantissa · 2 ^ exponent` or its negative; there are two zeros. -/
  | finite (negative : Bool) (mantissa : Nat) (exponent : Int)
  /-- An infinity. -/
  | infinite (negative : Bool)
  /-- The result of an undefined operation. -/
  | notANumber
  deriving DecidableEq, Repr

namespace Binary64

/-- A mantissa has at most 53 bits, so it stays below this. -/
def mantissaLimit : Nat := Nat.pow 2 53

/-- The exponent of the smallest numbers. -/
def leastExponent : Int := -1074

/-- The exponent of the largest numbers. -/
def greatestExponent : Int := 971

/-! ### The nearest number -/

/-- The integer nearest to a quotient; of two equally near ones the even one. -/
def roundDiv (numerator denominator : Nat) : Nat :=
  let quotient := numerator / denominator
  let doubled := 2 * (numerator % denominator)
  if denominator < doubled ∨ (denominator = doubled ∧ quotient % 2 = 1) then quotient + 1
  else quotient

/-- The ratio `numerator / denominator · base ^ exponent` as numerator and denominator. -/
def scale (base : Nat) (exponent : Int) (numerator denominator : Nat) : Nat × Nat :=
  (numerator * Nat.pow base exponent.toNat, denominator * Nat.pow base (-exponent).toNat)

/-- The number nearest to a positive ratio. The first exponent tried is the right one or one
too small, which the size of the quotient tells. -/
def nearestRatio (negative : Bool) (numerator denominator : Nat) : Binary64 :=
  let estimate := max ((numerator.log2 : Int) - denominator.log2 - 53) leastExponent
  let tried := scale 2 (-estimate) numerator denominator
  -- a quotient of 54 bits needs one more halving
  let exponent := if tried.1 / tried.2 < mantissaLimit then estimate else estimate + 1
  let scaled := scale 2 (-exponent) numerator denominator
  let mantissa := roundDiv scaled.1 scaled.2
  -- rounding up can reach the next power of two
  let (mantissa, exponent) :=
    if mantissa = mantissaLimit then (mantissaLimit / 2, exponent + 1) else (mantissa, exponent)
  if greatestExponent < exponent then infinite negative else finite negative mantissa exponent

/-- The number nearest to the decimal `digits · 10 ^ exponent`. A decimal with more than 400
places before the point is too large, and one with 400 zeros behind the point is too small,
to need the exact ratio. -/
def nearest (negative : Bool) (digits : Nat) (exponent : Int) : Binary64 :=
  let places := (Nat.toDigits 10 digits).length + exponent
  if digits = 0 ∨ places < -400 then finite negative 0 leastExponent
  else if 400 < places then infinite negative
  else
    let ratio := scale 10 exponent digits 1
    nearestRatio negative ratio.1 ratio.2

/-! ### The shortest decimal -/

/-- Whether four times a candidate, counted in the unit of the exact decimal, lies within the
half steps around a mantissa. Below a power of two the step is half as wide, and the ends
belong to an even mantissa. -/
def readsBack (mantissa : Nat) (exponent : Int) (unit candidate : Nat) : Bool :=
  let below := if mantissa = mantissaLimit / 2 ∧ leastExponent < exponent then 1 else 2
  let low := (4 * mantissa - below) * unit
  let high := (4 * mantissa + 2) * unit
  if mantissa % 2 = 0 then low ≤ 4 * candidate && 4 * candidate ≤ high
  else low < 4 * candidate && 4 * candidate < high

/-- The fewest digits, and the power of ten they are multiplied by, that read back as a
positive number. They are sought among the two neighbours of the number with one digit, with
two and so on; of two that read back the nearer is taken, and of two equally near the larger. -/
def shortestDigits (mantissa : Nat) (exponent : Int) : Nat × Int :=
  -- the number is `exact · 10 ^ power`: a half is five tenths
  let unit := Nat.pow 2 exponent.toNat * Nat.pow 5 (-exponent).toNat
  let power := min exponent 0
  let exact := mantissa * unit
  let size := (Nat.toDigits 10 exact).length
  let shortened (kept : Nat) : Option (Nat × Int) :=
    let step := Nat.pow 10 (size - kept)
    let lower := exact / step
    let upperIsNearer := step ≤ 2 * (exact % step)
    let fits (digits : Nat) := readsBack mantissa exponent unit (digits * step)
    -- on a tie the upper neighbour counts as the nearer one
    let choice :=
      if fits (lower + 1) && (upperIsNearer || !fits lower) then some (lower + 1)
      else if fits lower then some lower
      else none
    choice.map fun digits => (digits, power + (size - kept : Nat))
  ((List.range size).findSome? fun kept => shortened (kept + 1)).getD (exact, power)

/-- A decimal in positional notation, with at least one digit on either side of the point. -/
def positional (digits : Nat) (power : Int) : List Char :=
  let digits := Nat.toDigits 10 digits ++ List.replicate power.toNat '0'
  let places := (-power).toNat
  let padded := List.replicate (places + 1 - digits.length) '0' ++ digits
  let fraction := ((padded.drop (padded.length - places)).reverse.dropWhile (· == '0')).reverse
  padded.take (padded.length - places) ++ '.' :: (if fraction.isEmpty then ['0'] else fraction)

/-- The number in positional notation with the fewest digits that read back. -/
def text : Binary64 → String
  | finite negative mantissa exponent =>
    let digits := if mantissa = 0 then (0, 0) else shortestDigits mantissa exponent
    String.ofList ((if negative then ['-'] else []) ++ positional digits.1 digits.2)
  | infinite negative => if negative then "-inf" else "inf"
  | notANumber => "NaN"

end Binary64

end SearchKeys
