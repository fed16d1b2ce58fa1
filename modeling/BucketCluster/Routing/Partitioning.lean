import BucketCluster.Key
import BucketCluster.Routing.SipHash

/-!
# Partitioning

The keys of a bucket are spread over a fixed number of partitions by hashing, and
partitions and buckets over lists of members by their remainder.  All nodes of
an ensemble hash alike and so agree on the owners.
-/

namespace BucketCluster

/-- A number of partitions, at least one. -/
structure Partitioning where
  count : Nat
  count_pos : 0 < count
deriving DecidableEq

namespace Partitioning

/-- As many partitions as asked for, but at least one. -/
def ofCount (n : UInt32) : Partitioning := ⟨max n.toNat 1, by omega⟩

/-- A bucket's name as it is hashed: its bytes and an end mark that no text contains. -/
def bucketBytes (bucket : String) : Bytes := Utf8.encode bucket ++ [0xff]

/-- The partition of a key: the low half of the hash of bucket, length and bytes. -/
def partitionOf (p : Partitioning) (bucket : String) (k : Key) : Nat :=
  (SipHash.hash
    (bucketBytes bucket ++ Bytes.littleEndian 8 k.bytes.length ++ k.bytes)).toNat %
      UInt32.size % p.count

/-- The place of a bucket among `slots` clusters. -/
def slotOf (bucket : String) (slots : Nat) : Nat :=
  (SipHash.hash (bucketBytes bucket)).toNat % max slots 1

/-- The place of a partition's owner among `members` nodes. -/
def ownerOf (partition members : Nat) : Nat := partition % max members 1

theorem slotOf_lt (bucket : String) {slots : Nat} (h : 0 < slots) :
    slotOf bucket slots < slots := by
  have := Nat.mod_lt (SipHash.hash (bucketBytes bucket)).toNat (y := max slots 1) (by omega)
  unfold slotOf
  omega

theorem ownerOf_lt (partition : Nat) {members : Nat} (h : 0 < members) :
    ownerOf partition members < members := by
  have := Nat.mod_lt partition (y := max members 1) (by omega)
  unfold ownerOf
  omega

end Partitioning

end BucketCluster
