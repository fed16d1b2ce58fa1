import BucketCluster.Document
import BucketCluster.Failure
import BucketCluster.Key

/-!
# Answers

What a command that succeeded gives back, and the forms in which a coordinator
that merges partial answers asks for it.
-/

namespace BucketCluster

/-- The documents of some keys. -/
abbrev Documents := SortedMap Key Document

/-- The result of a command. -/
inductive Answer where
  | done
  | value (value : Option Document)
  | values (values : Documents)
  /-- Entries in the order of a comparator. -/
  | entries (entries : List (Key × Document))
  | keys (keys : KeySet)
  | buckets (names : SortedSet String)
  | count (n : UInt64)
deriving DecidableEq

/-- What comes back from a node that was reached. -/
abbrev Reply := Except ProcessingError Answer

namespace Answer

def asValue : Answer → Except ProcessingError (Option Document)
  | value v => .ok v
  | _ => .error (.unexpectedResult "value")

def asValues : Answer → Except ProcessingError Documents
  | values vs => .ok vs
  | _ => .error (.unexpectedResult "values")

def asEntries : Answer → Except ProcessingError (List (Key × Document))
  | entries es => .ok es
  | _ => .error (.unexpectedResult "entries")

def asKeys : Answer → Except ProcessingError KeySet
  | keys ks => .ok ks
  | _ => .error (.unexpectedResult "keys")

def asBuckets : Answer → Except ProcessingError (SortedSet String)
  | buckets bs => .ok bs
  | _ => .error (.unexpectedResult "buckets")

def asCount : Answer → Except ProcessingError UInt64
  | count n => .ok n
  | _ => .error (.unexpectedResult "count")

end Answer

end BucketCluster
