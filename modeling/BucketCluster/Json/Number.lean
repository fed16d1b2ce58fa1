import BucketCluster.Number.Literal
import BucketCluster.Number.Shortest
import BucketCluster.Json.Token

/-!
# JSON: numbers

A number without point and exponent that fits a signed or an unsigned 64-bit
word is an integer; every other one, `-0` included, is a binary64 number.  The
digits are gathered into a 64-bit significand, digits beyond it only count, and
the significand is scaled by a power of ten in one rounded multiplication or
division (two for exponents below -308).  A number beyond the finite ones is
refused.

An integer is written in decimal.  A binary64 number is written with its
shortest digits: positionally, with at least one decimal, from 1e-5 up to below
1e16, and with a signed exponent elsewhere.
-/

namespace BucketCluster.Json

/-- A number of a document. -/
inductive Number where
  | integer (n : Int)
  | real (x : Binary64)
deriving DecidableEq, Repr

/-! ## Reading -/

/-- Takes digits into the significand as long as it fits 64 bits. -/
def gather (significand : Nat) : Bytes → Nat × Bytes
  | [] => (significand, [])
  | b :: bs =>
    let next := 10 * significand + Bytes.digitValue b
    if Bytes.isDigit b && next < UInt64.size then gather next bs else (significand, b :: bs)

def powerOfTen (n : Nat) : Binary64 := Binary64.ofDecimal 1 n

/-- The significand scaled by a power of ten, unless that is beyond the finite
numbers. -/
def scale (significand : Nat) (exponent : Int) : Except Fault Binary64 :=
  let f := Binary64.ofNat significand
  if f.isZero then .ok f
  else if 308 < exponent then .error .malformed
  else if 0 ≤ exponent then
    let g := f.mul (powerOfTen exponent.toNat)
    if g.isInfinite then .error .malformed else .ok g
  else if -308 ≤ exponent then .ok (f.div (powerOfTen exponent.natAbs))
  else if -616 ≤ exponent then
    .ok ((f.div (powerOfTen 308)).div (powerOfTen (exponent + 308).natAbs))
  else .ok ⟨false, 0⟩

/-- The exponent part, its letter read; `exponent` is what the digits so far
amount to. -/
def exponentPart (significand : Nat) (exponent : Int) : Reader Binary64 := fun bs =>
  let (minus, bs) := Number.takeSign bs
  let (ds, rest) := Number.spanDigits bs
  if ds.isEmpty then .error (if rest.isEmpty then .truncated else .malformed)
  else
    let e := Bytes.ofDigits ds
    if 0x80000000 ≤ e then
      if significand ≠ 0 && !minus then .error .malformed else .ok (⟨false, 0⟩, rest)
    else (scale significand (exponent + if minus then -(e : Int) else e)).map (·, rest)

/-- An exponent part, if there is one. -/
def exponentTail (significand : Nat) (exponent : Int) : Reader Binary64
  | [] => (scale significand exponent).map (·, [])
  | b :: bs =>
    if b = 101 || b = 69 then exponentPart significand exponent bs
    else (scale significand exponent).map (·, b :: bs)

/-- The decimals after the point, and the exponent. -/
def fractionPart (significand : Nat) (exponent : Int) : Reader Binary64 := fun bs =>
  let (ds, rest) := Number.spanDigits bs
  if ds.isEmpty then .error (if rest.isEmpty then .truncated else .malformed)
  else
    let (significand, ignored) := gather significand ds
    exponentTail significand (exponent - (ds.length - ignored.length : Int)) rest

/-- Point and exponent, if there are any. -/
def fractionTail (significand : Nat) (exponent : Int) : Reader Binary64
  | 46 :: bs => fractionPart significand exponent bs
  | bs => exponentTail significand exponent bs

/-- A number whose sign has been read. -/
def numberTail (minus : Bool) : Reader Number
  | [] => .error .truncated
  | b :: bs =>
    if !Bytes.isDigit b then .error .malformed
    else
      let (significand, rest) := gather 0 (b :: bs)
      let (extra, rest) := Number.spanDigits rest
      let signed : Binary64 × Bytes → Number × Bytes := fun (x, rest) =>
        (.real (if minus then x.neg else x), rest)
      if b = 48 && (bs.head?.map Bytes.isDigit).getD false then .error .malformed
      else if !extra.isEmpty then (fractionTail significand extra.length rest).map signed
      else match rest with
        | 46 :: rest => (fractionPart significand 0 rest).map signed
        | 101 :: rest => (exponentPart significand 0 rest).map signed
        | 69 :: rest => (exponentPart significand 0 rest).map signed
        | rest =>
          if !minus then .ok (.integer significand, rest)
          else if significand = 0 || 0x8000000000000000 < significand then
            .ok (.real (Binary64.ofNat significand).neg, rest)
          else .ok (.integer (-significand), rest)

/-- A number; a minus sign may stand in front. -/
def readNumber : Reader Number
  | 45 :: bs => numberTail true bs
  | bs => numberTail false bs

/-! ## Passing over -/

/-- Passes over an exponent part whose letter has been read. -/
def skipExponent (bs : Bytes) : Except Fault Bytes :=
  let (ds, rest) := Number.spanDigits (Number.takeSign bs).2
  if ds.isEmpty then .error .malformed else .ok rest

/-- Passes over an exponent part, if there is one. -/
def skipExponentTail : Bytes → Except Fault Bytes
  | [] => .ok []
  | b :: bs => if b = 101 || b = 69 then skipExponent bs else .ok (b :: bs)

/-- Passes over a number whose sign has been read, whatever its size. -/
def skipNumberTail (bs : Bytes) : Except Fault Bytes :=
  let (ds, rest) := Number.spanDigits bs
  match ds with
  | [] => .error .malformed
  | d :: more =>
    if d = 48 && !more.isEmpty then .error .malformed
    else match rest with
      | 46 :: rest =>
        let (ds, rest) := Number.spanDigits rest
        if ds.isEmpty then .error .malformed else skipExponentTail rest
      | rest => skipExponentTail rest

/-! ## Writing -/

/-- The digits of a positive decimal, laid out. -/
def writeDecimal (d : Decimal) : Bytes :=
  let ds := Bytes.decimal d.significand
  -- how many digits stand before the point
  let point : Int := ds.length + d.exponent
  if 0 ≤ d.exponent && point ≤ 16 then
    ds ++ List.replicate d.exponent.toNat 48 ++ [46, 48]
  else if 0 < point && point ≤ 16 then
    ds.take point.toNat ++ 46 :: ds.drop point.toNat
  else if -5 < point && point ≤ 0 then
    48 :: 46 :: (List.replicate point.natAbs 48 ++ ds)
  else
    let e := point - 1
    let tail := 101 :: (if 0 ≤ e then 43 else 45) :: Bytes.decimal e.natAbs
    match ds with
    | [d] => d :: tail
    | d :: ds => d :: 46 :: (ds ++ tail)
    | [] => tail

/-- A finite number in decimal. -/
def writeReal (x : Binary64) : Bytes :=
  let body := if x.isZero then [48, 46, 48] else writeDecimal (Binary64.shortest x.steps)
  if x.negative then 45 :: body else body

/-- A number in decimal. -/
def Number.write : Number → Bytes
  | .integer n => Bytes.decimalInt n
  | .real x => writeReal x

end BucketCluster.Json
