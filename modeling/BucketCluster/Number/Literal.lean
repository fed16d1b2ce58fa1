import BucketCluster.Bytes
import BucketCluster.Number.Binary64

/-!
# Numbers written as text

The spelling of a number that a key may have: an optional sign, then `inf`,
`infinity` or `nan` in any case, or decimal digits with at most one point among
them and at least one digit, and an optional exponent.  Nothing may stand around
it, blanks included.
-/

namespace BucketCluster.Number

/-- What a numeric text denotes. -/
inductive Reading where
  | nan
  | number (x : Binary64)
deriving DecidableEq, Repr

/-- Splits off the longest run of digits in front. -/
def spanDigits (bs : Bytes) : Bytes × Bytes :=
  (bs.takeWhile Bytes.isDigit, bs.dropWhile Bytes.isDigit)

/-- Splits off a sign; `true` is minus. -/
def takeSign : Bytes → Bool × Bytes
  | 43 :: bs => (false, bs)
  | 45 :: bs => (true, bs)
  | bs => (false, bs)

/-- The exponent part that ends a text; an absent one is zero. -/
def exponent? : Bytes → Option Int
  | [] => some 0
  | b :: bs =>
    if b = 101 || b = 69 then
      let (minus, bs) := takeSign bs
      let (ds, rest) := spanDigits bs
      if ds.isEmpty || !rest.isEmpty then none
      else some (if minus then -(Bytes.ofDigits ds : Int) else Bytes.ofDigits ds)
    else none

/-- Digits, point and exponent of an unsigned number. -/
def decimal? (bs : Bytes) : Option Binary64 :=
  let (whole, rest) := spanDigits bs
  let (fraction, rest) :=
    match rest with
    | 46 :: rest => spanDigits rest
    | _ => ([], rest)
  if whole.isEmpty && fraction.isEmpty then none
  else (exponent? rest).map fun e =>
    Binary64.ofDecimal (Bytes.ofDigits (whole ++ fraction)) (e - fraction.length)

/-- Lower-case form of an ASCII letter. -/
def lowerAscii (b : UInt8) : UInt8 := if 65 ≤ b && b ≤ 90 then b + 32 else b

/-- The number that a text spells. -/
def read? (bs : Bytes) : Option Reading :=
  let (minus, bs) := takeSign bs
  let signed (x : Binary64) : Reading := .number ⟨minus, x.steps⟩
  let word := bs.map lowerAscii
  if word = [110, 97, 110] then some .nan
  else if word = [105, 110, 102] || word = [105, 110, 102, 105, 110, 105, 116, 121] then
    some (signed ⟨false, Binary64.infinitySteps⟩)
  else (decimal? bs).map signed

end BucketCluster.Number
