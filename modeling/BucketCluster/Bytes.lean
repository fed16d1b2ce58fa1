/-!
# Bytes

Keys, documents, files and messages are finite byte strings.  This module names
the type, spells numbers in decimal, fixes the little-endian form of machine
words, and gives the hexadecimal spelling used when bytes are shown to people.
-/

namespace BucketCluster

/-- A finite string of bytes. -/
abbrev Bytes := List UInt8

namespace Bytes

/-! ## Decimal digits -/

def isDigit (b : UInt8) : Bool := 48 ≤ b && b ≤ 57

/-- What a digit counts. -/
def digitValue (b : UInt8) : Nat := b.toNat - 48

/-- Decimal digits of `n`, most significant first, at most `fuel` of them. -/
def decimalAux : Nat → Nat → Bytes
  | 0, _ => []
  | fuel + 1, n =>
    if n < 10 then [UInt8.ofNat (48 + n)]
    else decimalAux fuel (n / 10) ++ [UInt8.ofNat (48 + n % 10)]

/-- Decimal digits of `n`, without leading zeros. -/
def decimal (n : Nat) : Bytes := decimalAux (n + 1) n

/-- The digits of `n` with a sign in front of a negative number. -/
def decimalInt (n : Int) : Bytes :=
  if n < 0 then 45 :: decimal n.natAbs else decimal n.natAbs

/-- The number that a run of digits spells, most significant first. -/
def ofDigits (ds : Bytes) : Nat := ds.foldl (fun n d => 10 * n + digitValue d) 0

/-! ## Machine words, least significant byte first -/

/-- The `width` low bytes of `n`. -/
def littleEndian : Nat → Nat → Bytes
  | 0, _ => []
  | width + 1, n => UInt8.ofNat (n % 256) :: littleEndian width (n / 256)

/-- The number whose little-endian bytes are given. -/
def ofLittleEndian : Bytes → Nat
  | [] => 0
  | b :: bs => b.toNat + 256 * ofLittleEndian bs

/-! ## Hexadecimal -/

/-- The lower-case hexadecimal digit of a number below sixteen. -/
def hexDigit (n : Nat) : UInt8 := if n < 10 then UInt8.ofNat (48 + n) else UInt8.ofNat (87 + n)

/-- What a hexadecimal digit of either case counts. -/
def hexValue? (b : UInt8) : Option Nat :=
  if 48 ≤ b && b ≤ 57 then some (b.toNat - 48)
  else if 97 ≤ b && b ≤ 102 then some (b.toNat - 87)
  else if 65 ≤ b && b ≤ 70 then some (b.toNat - 55)
  else none

/-- Two lower-case digits for each byte. -/
def hex (bs : Bytes) : Bytes :=
  bs.flatMap fun b => [hexDigit (b.toNat / 16), hexDigit (b.toNat % 16)]

/-- Bytes spelled by pairs of hexadecimal digits. -/
def ofHex? : Bytes → Option Bytes
  | [] => some []
  | [_] => none
  | hi :: lo :: rest =>
    match hexValue? hi, hexValue? lo with
    | some h, some l => (ofHex? rest).map (UInt8.ofNat (16 * h + l) :: ·)
    | _, _ => none

end Bytes

end BucketCluster
