import PackageAtlas.Text

set_option autoImplicit false

/-! # Decimal numbers as they are shown

A decimal is read as a number with a mantissa of 53 bits, in steps that are each rounded to the
nearest such number (`Decimal.value`), and that number is shown with as few digits as single it out
(`Binary.shortest`). `Decimal.text` writes these digits around a point where the number is neither
great nor small, and with an exponent elsewhere. All is computed exactly, on natural numbers. -/

namespace PackageAtlas

/-- The number `mantissa * 2 ^ exponent`. -/
structure Binary where
  mantissa : Nat
  exponent : Int

/-- The number `digits * 10 ^ exponent`. -/
structure Decimal where
  digits : Nat
  exponent : Int

namespace Binary

/-! ## Rounding -/

/-- The least exponent. -/
def leastExponent : Int :=
  -1074

/-- The least mantissa of a number whose exponent is not the least. -/
def fullMantissa : Nat :=
  Nat.pow 2 52

/-- A quotient to the nearest integer, a half to the even one. -/
def roundedQuotient (num den : Nat) : Nat :=
  let quotient := num / den
  let rest := num % den
  if 2 * rest < den then quotient
  else if 2 * rest > den then quotient + 1
  else quotient + quotient % 2

/-- The numerator and denominator of `a * base ^ exponent`. -/
def ratio (a base : Nat) (exponent : Int) : Nat × Nat :=
  if 0 ≤ exponent then (a * Nat.pow base exponent.toNat, 1)
  else (a, Nat.pow base (-exponent).toNat)

/-- The number with a mantissa of at most 53 bits that is nearest to a positive quotient. -/
def nearest (num den : Nat) : Binary :=
  let guess : Int := Nat.log2 num - Nat.log2 den - 53
  let scaled (exponent : Int) : Nat × Nat :=
    let power := ratio 1 2 exponent
    (num * power.2, den * power.1)
  let exact : Int :=
    if (scaled guess).1 < (scaled guess).2 * (2 * fullMantissa) then guess else guess + 1
  let exponent := max exact leastExponent
  let mantissa := roundedQuotient (scaled exponent).1 (scaled exponent).2
  if mantissa = 2 * fullMantissa then ⟨fullMantissa, exponent + 1⟩ else ⟨mantissa, exponent⟩

/-- A natural number, rounded. -/
def ofNat (n : Nat) : Binary :=
  nearest n 1

/-- The product of two numbers, rounded. -/
def mul (a b : Binary) : Binary :=
  let product := ratio (a.mantissa * b.mantissa) 2 (a.exponent + b.exponent)
  nearest product.1 product.2

/-- The quotient of two numbers, rounded. -/
def div (a b : Binary) : Binary :=
  let quotient := ratio a.mantissa 2 (a.exponent - b.exponent)
  nearest quotient.1 (quotient.2 * b.mantissa)

/-! ## The digits of a number -/

/-- The multiple of `10 ^ exponent` nearest to a number, if it is positive and no other number is
nearer to it; of two that are equally near the one with an even last digit. -/
def onGrid? (number : Binary) (exponent : Int) : Option Decimal :=
  let unit := ratio 1 2 (number.exponent - 2)
  let step := ratio 1 10 exponent
  let den := unit.2 * step.1
  let scaled (quarters : Nat) : Nat := quarters * unit.1 * step.2
  let value := scaled (4 * number.mantissa)
  let belowGap :=
    if number.mantissa = fullMantissa ∧ number.exponent > leastExponent then 1 else 2
  let low := scaled (4 * number.mantissa - belowGap)
  let high := scaled (4 * number.mantissa + 2)
  let singledOut (digits : Nat) : Bool :=
    0 < digits && (if number.mantissa % 2 = 0 then low ≤ digits * den && digits * den ≤ high
      else low < digits * den && digits * den < high)
  let first := roundedQuotient value den
  let second := if first = value / den then first + 1 else first - 1
  if singledOut first then some ⟨first, exponent⟩
  else if singledOut second then some ⟨second, exponent⟩
  else none

/-- The decimal on the coarsest of `count` grids, from `10 ^ exponent` downwards, that singles a
number out. -/
def shortestFrom (number : Binary) : Nat → Int → Decimal
  | 0, exponent => ⟨0, exponent⟩
  | count + 1, exponent =>
    match onGrid? number exponent with
    | some decimal => decimal
    | none => shortestFrom number count (exponent - 1)

/-- The decimal with the fewest digits that singles a number out. -/
def shortest (number : Binary) : Decimal :=
  shortestFrom number 700 310

end Binary

namespace Decimal

/-! ## Reading -/

/-- The greatest number of places that a number is moved by at once. -/
def stepLimit : Nat :=
  308

/-- The power of ten with `places` zeros, rounded. -/
def powerOfTen (places : Nat) : Binary :=
  Binary.ofNat (Nat.pow 10 places)

/-- A decimal without its last digits, of which as many are left out as it takes for the rest to fit
into 64 bits, at most `count`. -/
def shortened : Nat → Decimal → Decimal
  | 0, decimal => decimal
  | count + 1, ⟨digits, exponent⟩ =>
    if digits < 0x10000000000000000 then ⟨digits, exponent⟩
    else shortened count ⟨digits / 10, exponent + 1⟩

/-- A number divided by a power of ten in steps of at most `stepLimit` places, of which there are
at most `steps`. -/
def lowered : Nat → Binary → Nat → Binary
  | 0, number, _ => number
  | steps + 1, number, places =>
    if number.mantissa = 0 then number
    else if places ≤ stepLimit then number.div (powerOfTen places)
    else lowered steps (number.div (powerOfTen stepLimit)) (places - stepLimit)

/-- The number that a decimal is read as: its first digits, those that fit into 64 bits, moved to
their place. -/
def value (decimal : Decimal) : Binary :=
  let short := shortened (Nat.log2 decimal.digits) decimal
  let number := Binary.ofNat short.digits
  if number.mantissa = 0 then number
  else if 0 ≤ short.exponent then number.mul (powerOfTen short.exponent.toNat)
  else lowered ((-short.exponent).toNat + 1) number (-short.exponent).toNat

/-! ## Showing -/

/-- A decimal without an exponent, with digits on both sides of the point. -/
def positional (decimal : Decimal) : Text :=
  let written := Nat.toDigits 10 decimal.digits
  if 0 ≤ decimal.exponent then
    written ++ List.replicate decimal.exponent.toNat '0' ++ ".0".toList
  else
    let places := (-decimal.exponent).toNat
    let padded := List.replicate (places + 1 - written.length) '0' ++ written
    padded.take (padded.length - places) ++ '.' :: padded.drop (padded.length - places)

/-- A decimal with one digit before the point and an exponent with its sign; the point is left out
where nothing follows it. -/
def scientific (decimal : Decimal) : Text :=
  let written := Nat.toDigits 10 decimal.digits
  let exponent := decimal.exponent + (written.length - 1 : Nat)
  let fraction := if written.drop 1 = [] then [] else '.' :: written.drop 1
  let sign := if exponent < 0 then '-' else '+'
  written.take 1 ++ fraction ++ 'e' :: sign :: Nat.toDigits 10 exponent.natAbs

/-- The number of digits before the point, or the negated number of zeros between the point and the
first digit. -/
def magnitude (decimal : Decimal) : Int :=
  decimal.exponent + (Nat.toDigits 10 decimal.digits).length

/-- A decimal in digits: positional if at most 16 digits come before the point and at most four
zeros after it, and scientific elsewhere. -/
def text (decimal : Decimal) : Text :=
  if -5 < decimal.magnitude ∧ decimal.magnitude ≤ 16 then decimal.positional
  else decimal.scientific

/-- The number that a decimal is read as, with a minus if it is negative. -/
def shown (negative : Bool) (decimal : Decimal) : Text :=
  let sign : Text := if negative then ['-'] else []
  let number := decimal.value
  if number.mantissa = 0 then sign ++ "0.0".toList else sign ++ (Binary.shortest number).text

end Decimal

end PackageAtlas
