import BucketCluster.Number.Binary64

/-!
# Shortest decimals

The decimal with the fewest digits that rounds to a given binary64 number; of
two with as few digits the nearer one, and of two equally near ones the even
one.

The numbers that round to a step lie between the midpoints to its neighbours,
midpoints included when the step count is even.  For 1, 2, … digits the two
points of the decimal grid next to the value are tried; if any point of a grid
lies between the midpoints, one of these two does.
-/

namespace BucketCluster

/-- The decimal `significand * 10 ^ exponent`. -/
structure Decimal where
  significand : Nat
  exponent : Int
deriving DecidableEq, Repr

namespace Decimal

/-- Drops the zeros at the end of the significand, at most `fuel` of them. -/
def strip : Nat → Decimal → Decimal
  | 0, d => d
  | fuel + 1, d =>
    if d.significand % 10 = 0 && d.significand != 0 then
      strip fuel ⟨d.significand / 10, d.exponent + 1⟩
    else d

end Decimal

namespace Binary64

/-- Numerator and denominator of `num / den / 10 ^ e`. -/
def scaleDown (num den : Nat) (e : Int) : Nat × Nat :=
  if 0 ≤ e then (num, den * Nat.pow 10 e.toNat) else (num * Nat.pow 10 e.natAbs, den)

/-- The exponent of the leading decimal digit of `num / den`, found by trying
`e`, `e + 1`, … -/
def leadingExponent (num den : Nat) : Nat → Int → Int
  | 0, e => e
  | fuel + 1, e =>
    let (n, d) := scaleDown num den (e + 1)
    if n < d then e else leadingExponent num den fuel (e + 1)

/-- Does `c * 10 ^ e` round to the number at `steps`? -/
def roundsTo (steps c : Nat) (e : Int) : Bool :=
  let low := units (steps - 1) + units steps
  let high := units steps + units (steps + 1)
  -- both midpoints are in half units
  let (l, d) := scaleDown low (2 * unitsPerOne) e
  let (h, _) := scaleDown high (2 * unitsPerOne) e
  if steps % 2 = 0 then l ≤ c * d && c * d ≤ h else l < c * d && c * d < h

/-- The best decimal with `digits` digits, if one rounds to the number. -/
def candidate? (steps : Nat) (lead : Int) (digits : Nat) : Option Decimal :=
  let e := lead + 1 - digits
  let (num, den) := scaleDown (units steps) unitsPerOne e
  let c := num / den
  let r := num % den
  match roundsTo steps c e, roundsTo steps (c + 1) e with
  | true, true =>
    let up := den < 2 * r || (den = 2 * r && c % 2 = 1)
    some ⟨if up then c + 1 else c, e⟩
  | true, false => some ⟨c, e⟩
  | false, true => some ⟨c + 1, e⟩
  | false, false => none

/-- The shortest decimal of the positive finite number at `steps`. -/
def shortest (steps : Nat) : Decimal :=
  let u := units steps
  let start : Int := ((u.log2 : Int) - 1075) * 30103 / 100000 - 1
  let lead := leadingExponent u unitsPerOne 8 start
  let found := ((List.range 17).map (· + 1)).findSome? (candidate? steps lead)
  (found.getD ⟨u, 0⟩).strip 20

end Binary64

end BucketCluster
