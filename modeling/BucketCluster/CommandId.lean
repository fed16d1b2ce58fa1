import BucketCluster.Routing.SipHash
import BucketCluster.Text.Utf8

/-!
# Command ids

A coordinator gives each of its commands an id of its own: a random UUID, sixteen
bytes of which all but six bits come from a seed and a running number.
-/

namespace BucketCluster

/-- A supply of ids. -/
structure IdSource where
  seed : UInt64
  issued : Nat
deriving DecidableEq, Repr

namespace IdSource

/-- Eight random bytes; `half` tells the two halves of an id apart. -/
def noise (s : IdSource) (half : Nat) : Bytes :=
  Bytes.littleEndian 8
    (SipHash.hash (Bytes.littleEndian 8 s.seed.toNat ++ Bytes.littleEndian 8 s.issued ++
      Bytes.littleEndian 1 half)).toNat

/-- Marks the first half of an id as random (version 4). -/
def markVersion : Bytes → Bytes
  | a :: b :: c :: d :: e :: f :: g :: rest =>
    a :: b :: c :: d :: e :: f :: (g &&& 0x0f ||| 0x40) :: rest
  | bs => bs

/-- Marks the second half of an id as one of the usual variant. -/
def markVariant : Bytes → Bytes
  | a :: rest => (a &&& 0x3f ||| 0x80) :: rest
  | bs => bs

/-- Digits in groups of 8, 4, 4, 4 and 12, with dashes between them. -/
def dashed (digits : Bytes) : Bytes :=
  digits.take 8 ++ [45] ++ (digits.drop 8).take 4 ++ [45] ++ (digits.drop 12).take 4 ++ [45] ++
    (digits.drop 16).take 4 ++ [45] ++ digits.drop 20

/-- The next id, and the supply without it. -/
def next (s : IdSource) : String × IdSource :=
  let digits := Bytes.hex (markVersion (s.noise 0) ++ markVariant (s.noise 1))
  (Utf8.lossy (dashed digits), { s with issued := s.issued + 1 })

end IdSource

end BucketCluster
