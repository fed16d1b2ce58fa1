import BucketCluster.Store

/-!
# Applying commands

What a command does to the store of the node that it reached.  The operators that
it names are looked up first, so that a missing bucket cannot hide an unknown
one; only the function of an update is looked up in its bucket.

`apply` takes every operator at its word.  `handle` is what a node runs: a
command during which an operator crashes is answered with that and changes
nothing.
-/

namespace BucketCluster.Store

/-- The names of condition and comparator are known. -/
def checkOperators (s : Store) (op : Operation) : Except StoreError Unit := do
  let _ ← s.operators.filter op.predicate?
  match op with
  | .rangeQuery _ r _ => do
    let _ ← s.operators.comparator r.comparatorName
    .ok ()
  | _ => .ok ()

/-- The answer of a read; the store stays as it is. -/
def reading (s : Store) (answer : Except StoreError Answer) : Except StoreError Answer × Store :=
  (answer, s)

/-- What an operation whose operators are known does. -/
def perform (s : Store) : Operation → Except StoreError Answer × Store
  | .getBuckets => s.reading (.ok (.buckets s.buckets.keySet))
  | .getValue b k p => s.reading ((s.value b k p).map .value)
  | .getValues b ks p => s.reading ((s.valuesOf b ks p).map .values)
  | .getKeys b => s.reading (.ok (.keys (s.contents b).keySet))
  | .putValue b k d p =>
    -- the bucket is there from now on, whether or not the document gets in
    let (r, s) := (s.create b).tryPut b k d p
    (r.map fun _ => .done, s)
  | .removeValue b k => (.ok .done, s.remove b k)
  | .updateValue b k u =>
    let (r, s) := s.tryUpdate b k u
    (r.map fun d => .value (some d), s)
  | .rangeQuery b r p => s.reading ((s.range b r p).map .entries)
  | .predicateQuery b p => s.reading ((s.query b p).map .values)
  | .removeBucket b => (.ok .done, s.drop b)
  | .importBackup b source =>
    let (n, s) := s.importBackup b source
    (n.map fun n => .count (UInt64.ofNat n), s)
  | .exportBackup b destination =>
    let (n, s) := s.exportBackup b destination
    (n.map fun n => .count (UInt64.ofNat n), s)

/-- Applies a command. -/
def apply (s : Store) (c : Command) : Except StoreError Answer × Store :=
  match s.checkOperators c.operation with
  | .error e => (.error e, s)
  | .ok () => s.perform c.operation

/-! ## Crashing operators -/

/-- Some document that the test picks makes the filter crash. -/
def crashesOn (s : Store) (bucket : String) (f : Filter) (picks : Key → Bool) : Bool :=
  (s.contents bucket).entries.any fun e => picks e.1 && f.crashes e.1 e.2

/-- The function of an update crashes on the stored document. -/
def updateCrashes (s : Store) (bucket : String) (k : Key) (u : Update) : Bool :=
  match (s.contents bucket).get? k, s.operators.functions.get? u.function with
  | some d, some f => f.crashes k d u.parameters
  | _, _ => false

/-- An operator crashes in the course of the operation. -/
def crashes (s : Store) (op : Operation) : Bool :=
  match s.operators.filter op.predicate? with
  | .error _ => false
  | .ok f =>
    match op with
    | .getValue b k _ => s.crashesOn b f (· == k)
    | .getValues b ks _ => s.crashesOn b f ks.contains
    | .putValue b k _ _ => s.crashesOn b f (· == k)
    | .updateValue b k u => s.updateCrashes b k u
    | .rangeQuery b r _ =>
      match s.operators.comparator r.comparatorName with
      | .ok order => s.crashesOn b f (r.includes order)
      | .error _ => false
    | .predicateQuery b _ => s.crashesOn b f fun _ => true
    | _ => false

/-- Runs a command and gives its reply. -/
def handle (s : Store) (c : Command) : Reply × Store :=
  if s.crashes c.operation then (.error (.panicked "operator crashed"), s)
  else
    let (answer, s) := s.apply c
    (answer.mapError .store, s)

end BucketCluster.Store
