/-!
# Binary64 numbers

A binary64 number other than NaN is a sign and a count of steps away from zero:
the non-negative numbers in increasing order are numbered 0, 1, 2, …, with
infinity at the end.  Numbers compare as their signed step counts do, and the
two zeros compare equal.

All values are whole multiples of the smallest step, 2^-1074, here called the
*unit*, so rounding is exact arithmetic on natural numbers: `nearest` takes a
quotient of natural numbers, in units, to the nearest step, and a quotient
half-way between two steps to the even one.
-/

namespace BucketCluster

/-- A number of the binary64 format, infinities included, NaN left out. -/
structure Binary64 where
  negative : Bool
  steps : Nat
deriving DecidableEq, Repr

namespace Binary64

/-! ## Steps and units -/

/-- The step count of infinity. -/
def infinitySteps : Nat := 2047 <<< 52

/-- How many units make 1. -/
def unitsPerOne : Nat := 1 <<< 1074

/-- How far the significand of the number at `steps` is shifted. -/
def shift (steps : Nat) : Nat := steps >>> 52 - 1

/-- The value at `steps`, in units. -/
def units (steps : Nat) : Nat := (steps - shift steps <<< 52) <<< shift steps

/-- Quotient rounded to the nearest natural number, half-way to the even one. -/
def roundQuotient (num den : Nat) : Nat :=
  let q := num / den
  let r := num % den
  if 2 * r < den then q
  else if den < 2 * r then q + 1
  else q + q % 2

/-- The step nearest to `num / den` units. -/
def nearest (num den : Nat) : Nat :=
  let e := (num / den).log2 - 52
  min infinitySteps (e <<< 52 + roundQuotient num (den <<< e))

/-! ## Arithmetic -/

def ofNat (n : Nat) : Binary64 := ⟨false, nearest (n * unitsPerOne) 1⟩

def isInfinite (x : Binary64) : Bool := x.steps == infinitySteps

def isZero (x : Binary64) : Bool := x.steps == 0

def neg (x : Binary64) : Binary64 := ⟨!x.negative, x.steps⟩

/-- Product of two finite numbers, rounded. -/
def mul (x y : Binary64) : Binary64 :=
  ⟨x.negative != y.negative, nearest (units x.steps * units y.steps) unitsPerOne⟩

/-- Quotient of two finite numbers, the second not zero, rounded. -/
def div (x y : Binary64) : Binary64 :=
  ⟨x.negative != y.negative, nearest (units x.steps * unitsPerOne) (units y.steps)⟩

/-- The number nearest to `significand * 10 ^ exponent`. -/
def ofDecimal (significand : Nat) (exponent : Int) : Binary64 :=
  if significand = 0 then ⟨false, 0⟩
  else if 310 ≤ exponent then ⟨false, infinitySteps⟩
  else if (significand.log2 : Int) + 3 * (exponent + 324) ≤ 0 then ⟨false, 0⟩
  else if 0 ≤ exponent then
    ⟨false, nearest (significand * Nat.pow 10 exponent.toNat * unitsPerOne) 1⟩
  else ⟨false, nearest (significand * unitsPerOne) (Nat.pow 10 exponent.natAbs)⟩

/-! ## Order -/

/-- The signed step count. -/
def rank (x : Binary64) : Int := if x.negative then -(x.steps : Int) else x.steps

/-- Numeric order; the two zeros are equal. -/
def order (x y : Binary64) : Ordering := compare x.rank y.rank

end Binary64

end BucketCluster
