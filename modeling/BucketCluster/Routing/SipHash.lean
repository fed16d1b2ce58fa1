import BucketCluster.Bytes

/-!
# SipHash-1-3

The 64-bit hash of a byte string under the zero key: one round for each block of
eight bytes, three rounds at the end.  The last block holds the remaining bytes
and, in its highest byte, the length.
-/

namespace BucketCluster.SipHash

/-- The four words that the hash works on. -/
structure State where
  v0 : UInt64
  v1 : UInt64
  v2 : UInt64
  v3 : UInt64

def rotate (x : UInt64) (n : UInt64) : UInt64 := (x <<< n) ||| (x >>> (64 - n))

def round (s : State) : State :=
  let v0 := s.v0 + s.v1
  let v1 := rotate s.v1 13 ^^^ v0
  let v0 := rotate v0 32
  let v2 := s.v2 + s.v3
  let v3 := rotate s.v3 16 ^^^ v2
  let v0 := v0 + v3
  let v3 := rotate v3 21 ^^^ v0
  let v2 := v2 + v1
  let v1 := rotate v1 17 ^^^ v2
  let v2 := rotate v2 32
  ⟨v0, v1, v2, v3⟩

/-- Takes in one block. -/
def absorb (s : State) (block : UInt64) : State :=
  let s := round { s with v3 := s.v3 ^^^ block }
  { s with v0 := s.v0 ^^^ block }

/-- Takes in the bytes; `length` of them have gone before. -/
def absorbAll (s : State) (length : Nat) : Bytes → State
  | a :: b :: c :: d :: e :: f :: g :: h :: rest =>
    absorbAll (absorb s (UInt64.ofNat (Bytes.ofLittleEndian [a, b, c, d, e, f, g, h])))
      (length + 8) rest
  | rest =>
    let total := length + rest.length
    absorb s (UInt64.ofNat (Bytes.ofLittleEndian rest + (total % 256) <<< 56))

/-- The state before the first byte. -/
def start : State :=
  ⟨0x736f6d6570736575, 0x646f72616e646f6d, 0x6c7967656e657261, 0x7465646279746573⟩

/-- The hash of a byte string. -/
def hash (bs : Bytes) : UInt64 :=
  let s := absorbAll start 0 bs
  let s := round (round (round { s with v2 := s.v2 ^^^ 0xff }))
  s.v0 ^^^ s.v1 ^^^ s.v2 ^^^ s.v3

end BucketCluster.SipHash
