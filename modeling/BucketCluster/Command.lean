import BucketCluster.Document
import BucketCluster.Key
import BucketCluster.Predicate

/-!
# Commands

An operation on the store, with the id under which its coordinator knows it.  A
command is never changed once made; the parts into which a multi-key read is
split keep its id.
-/

namespace BucketCluster

/-- An inclusive range of keys in the order of a named comparator. -/
structure KeyRange where
  start : Key
  /-- The last key that may be in the range; `none` for no bound. -/
  stop : Option Key
  /-- At most so many entries; 0 for no limit. -/
  limit : UInt64
  comparator : Option String
deriving DecidableEq, Repr, Inhabited

/-- The comparator that a range names; byte order if it names none. -/
def KeyRange.comparatorName (r : KeyRange) : String := r.comparator.getD "lexical"

/-- Named arguments of an update function. -/
abbrev Parameters := SortedMap String String

/-- A change of one document, computed where it is stored: the named function,
its arguments, and how long it may take. -/
structure Update where
  function : String
  milliseconds : UInt64
  parameters : Parameters
deriving DecidableEq

/-- What a command asks for. -/
inductive Operation where
  | getBuckets
  | getValue (bucket : String) (key : Key) (predicate : Option Predicate)
  | getValues (bucket : String) (keys : KeySet) (predicate : Option Predicate)
  | getKeys (bucket : String)
  | putValue (bucket : String) (key : Key) (value : Document) (predicate : Option Predicate)
  | removeValue (bucket : String) (key : Key)
  | updateValue (bucket : String) (key : Key) (update : Update)
  | rangeQuery (bucket : String) (range : KeyRange) (predicate : Option Predicate)
  | predicateQuery (bucket : String) (predicate : Predicate)
  | removeBucket (bucket : String)
  | importBackup (bucket : String) (source : String)
  | exportBackup (bucket : String) (destination : String)
deriving DecidableEq

namespace Operation

/-- The name of the kind of operation. -/
def name : Operation → String
  | getBuckets => "get_buckets"
  | getValue .. => "get_value"
  | getValues .. => "get_values"
  | getKeys .. => "get_keys"
  | putValue .. => "put_value"
  | removeValue .. => "remove_value"
  | updateValue .. => "update_value"
  | rangeQuery .. => "range_query"
  | predicateQuery .. => "predicate_query"
  | removeBucket .. => "remove_bucket"
  | importBackup .. => "import_backup"
  | exportBackup .. => "export_backup"

/-- The predicate that filters what the operation touches. -/
def predicate? : Operation → Option Predicate
  | getValue _ _ p => p
  | getValues _ _ p => p
  | putValue _ _ _ p => p
  | rangeQuery _ _ p => p
  | predicateQuery _ p => some p
  | _ => none

/-- The operation under another predicate, for the kinds that may do without
one; the others stay as they are. -/
def withPredicate (p : Predicate) : Operation → Operation
  | getValue b k _ => getValue b k (some p)
  | getValues b ks _ => getValues b ks (some p)
  | putValue b k v _ => putValue b k v (some p)
  | rangeQuery b r _ => rangeQuery b r (some p)
  | op => op

/-- The backup that the operation reads or writes. -/
def backup? : Operation → Option String
  | importBackup _ source => some source
  | exportBackup _ destination => some destination
  | _ => none

/-- A multi-key read of other keys; the other kinds stay as they are. -/
def narrowed (keys : KeySet) : Operation → Operation
  | getValues b _ p => getValues b keys p
  | op => op

end Operation

/-- An operation with its correlation id. -/
structure Command where
  id : String
  operation : Operation
deriving DecidableEq

namespace Command

def withPredicate (p : Predicate) (c : Command) : Command :=
  { c with operation := c.operation.withPredicate p }

def narrowed (keys : KeySet) (c : Command) : Command :=
  { c with operation := c.operation.narrowed keys }

end Command

end BucketCluster
