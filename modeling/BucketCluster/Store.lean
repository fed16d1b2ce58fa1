import BucketCluster.Backup
import BucketCluster.Operators

/-!
# Stores

A store holds buckets of documents, the operators that its commands may name,
and the directory of its backups.  A bucket that does not exist reads as an
empty one; only `put` and `importBackup` create it.

Operations that write and can fail give their result together with the store as
they leave it: what they have done by the time they fail stays done.
-/

namespace BucketCluster

/-- The buckets of a node. -/
structure Store where
  buckets : SortedMap String Documents
  operators : Operators
  backups : BackupDirectory

namespace Store

/-- A store without buckets. -/
def empty (operators : Operators) (backups : BackupDirectory) : Store := ⟨∅, operators, backups⟩

/-- The documents of a bucket; none if there is no such bucket. -/
def contents (s : Store) (bucket : String) : Documents := (s.buckets.get? bucket).getD ∅

def hasBucket (s : Store) (bucket : String) : Bool := s.buckets.contains bucket

/-- The store with other documents in a bucket, which exists from now on. -/
def setContents (s : Store) (bucket : String) (ds : Documents) : Store :=
  { s with buckets := s.buckets.insert bucket ds }

/-- How many documents all buckets hold together. -/
def entryCount (s : Store) : Nat := (s.buckets.values.map (·.size)).foldr (· + ·) 0

/-! ## Buckets -/

/-- Creates a bucket unless it exists. -/
def create (s : Store) (bucket : String) : Store := s.setContents bucket (s.contents bucket)

/-- Removes a bucket with all its documents. -/
def drop (s : Store) (bucket : String) : Store := { s with buckets := s.buckets.erase bucket }

/-! ## Reading -/

/-- The document under a key, if the predicate keeps it. -/
def value (s : Store) (bucket : String) (k : Key) (p : Option Predicate) :
    Except StoreError (Option Document) := do
  let f ← s.operators.filter p
  .ok (((s.contents bucket).get? k).filter (f.keeps k))

/-- The documents under the given keys that the predicate keeps. -/
def valuesOf (s : Store) (bucket : String) (ks : KeySet) (p : Option Predicate) :
    Except StoreError Documents := do
  let f ← s.operators.filter p
  .ok ((s.contents bucket).filter fun k d => ks.contains k && f.keeps k d)

/-- All documents that the predicate keeps. -/
def query (s : Store) (bucket : String) (p : Predicate) : Except StoreError Documents := do
  let f ← s.operators.filter (some p)
  .ok ((s.contents bucket).filter f.keeps)

end Store

/-! ## Ranges -/

namespace KeyRange

/-- Does the key lie between the bounds, both included? -/
def includes (r : KeyRange) (order : Comparator) (k : Key) : Bool :=
  (order r.start k).isLE &&
    match r.stop with
    | some stop => (order k stop).isLE
    | none => true

/-- The entries in the order of their keys; equal ones stay in place. -/
def sortEntries (order : Comparator) (es : List (Key × Document)) : List (Key × Document) :=
  es.mergeSort fun a b => (order a.1 b.1).isLE

/-- At most as many entries as the range asks for. -/
def truncate (r : KeyRange) (es : List (Key × Document)) : List (Key × Document) :=
  if r.limit = 0 then es else es.take r.limit.toNat

/-- The first entries, in order, that lie in the range and that the filter keeps, out of
entries in any order. -/
def select (r : KeyRange) (order : Comparator) (f : Filter) (es : List (Key × Document)) :
    List (Key × Document) :=
  r.truncate (sortEntries order (es.filter fun e => r.includes order e.1 && f.keeps e.1 e.2))

end KeyRange

namespace Store

/-- The first entries of a range that the predicate keeps. -/
def range (s : Store) (bucket : String) (r : KeyRange) (p : Option Predicate) :
    Except StoreError (List (Key × Document)) := do
  let order ← s.operators.comparator r.comparatorName
  let f ← s.operators.filter p
  .ok (r.select order f (s.contents bucket).entries)

/-! ## Writing -/

/-- Stores a document, unless the key holds one that the predicate does not keep. -/
def tryPut (s : Store) (bucket : String) (k : Key) (d : Document) (p : Option Predicate) :
    Except StoreError Unit × Store :=
  match s.operators.filter p with
  | .error e => (.error e, s)
  | .ok f =>
    let ds := s.contents bucket
    if ((ds.get? k).map (f.keeps k)).getD true then (.ok (), s.setContents bucket (ds.insert k d))
    else (.error (.conditionFailed bucket k.shown), s)

/-- The store after a put that has succeeded. -/
def put (s : Store) (bucket : String) (k : Key) (d : Document) (p : Option Predicate) :
    Except StoreError Store :=
  let (r, s) := s.tryPut bucket k d p
  r.map fun _ => s

/-- Removes the document under a key. -/
def remove (s : Store) (bucket : String) (k : Key) : Store :=
  match s.buckets.get? bucket with
  | some ds => s.setContents bucket (ds.erase k)
  | none => s

/-- Stores what the function makes of the document under a key, and gives it
back. -/
def tryUpdate (s : Store) (bucket : String) (k : Key) (u : Update) :
    Except StoreError Document × Store :=
  match s.buckets.get? bucket with
  | none => (.error (.keyNotFound bucket k.shown), s)
  | some ds =>
    match s.operators.function u.function with
    | .error e => (.error e, s)
    | .ok f =>
      match ds.get? k with
      | none => (.error (.keyNotFound bucket k.shown), s)
      | some d =>
        match f.updated k d u with
        | .error e => (.error e, s)
        | .ok d => (.ok d, s.setContents bucket (ds.insert k d))

/-- The document and the store after an update that has succeeded. -/
def update (s : Store) (bucket : String) (k : Key) (u : Update) :
    Except StoreError (Document × Store) :=
  let (r, s) := s.tryUpdate bucket k u
  r.map (·, s)

/-! ## Backups -/

/-- Creates the bucket, and stores the entries of a backup in it. -/
def importBackup (s : Store) (bucket source : String) : Except StoreError Nat × Store :=
  let s := s.create bucket
  match s.backups.importEntries source with
  | .error e => (.error e, s)
  | .ok es => (.ok es.length, s.setContents bucket ((s.contents bucket).insertAll es))

/-- Writes all entries of a bucket to a backup. -/
def exportBackup (s : Store) (bucket destination : String) : Except StoreError Nat × Store :=
  let (count, backups) := s.backups.exportEntries destination (s.contents bucket).entries
  (count, { s with backups := backups })

end Store

end BucketCluster
