import BucketCluster.Routing.Table
import BucketCluster.Store

/-!
# Plans

How a coordinator has a command carried out: to which nodes it sends which
commands, and how their answers become the answer of the command.

The condition of a predicate is looked up before anything else, in the operators
of the coordinator, so that a misspelled name is reported whatever the table
says; the comparator of a range query, which the coordinator needs itself, comes
next.  Commands on one key go to its owner, multi-key reads to the owners of
their keys, the other commands on a bucket to all nodes of its cluster, and
backups and the list of buckets concern the node of the coordinator alone.
-/

namespace BucketCluster

/-! ## Merging -/

/-- How the answers of the nodes become one. -/
inductive Merge where
  /-- The one answer as it is. -/
  | only
  | values
  | keys
  /-- The first entries of all nodes in the order of a comparator. -/
  | entries (order : Comparator) (range : KeyRange)
  /-- That all have answered is all that counts. -/
  | done

/-- The answer out of the answers of the nodes, in the order in which they came. -/
def Merge.answer : Merge → List Answer → Except ProcessingError Answer
  | only, answers => .ok (answers.headD .done)
  | values, answers => do
    let parts ← answers.mapM Answer.asValues
    .ok (.values (.ofList (parts.flatMap SortedMap.entries)))
  | keys, answers => do
    let parts ← answers.mapM Answer.asKeys
    .ok (.keys (.ofList (parts.flatMap SortedMap.entries)))
  | entries order range, answers => do
    let parts ← answers.mapM Answer.asEntries
    .ok (.entries (range.truncate (KeyRange.sortEntries order parts.flatten)))
  | done, _ => .ok .done

/-! ## Planning -/

/-- What is sent where, and what becomes of the answers. -/
structure Plan where
  sends : List (Node × Command)
  merge : Merge

/-- A plan for one node. -/
def Plan.direct (n : Node) (c : Command) : Plan := ⟨[(n, c)], .only⟩

namespace Router

/-- A store error of the coordinator itself. -/
def ofStore {α : Type} (r : Except StoreError α) : Except ClusterError α := r.mapError .ofStore

/-- An error of the routing table. -/
def ofRoute {α : Type} (r : Except RouteError α) : Except ClusterError α := r.mapError .missingRoute

/-- Sends the command to the owner of a key. -/
def toOwner (r : Router) (c : Command) (bucket : String) (k : Key) : Except ClusterError Plan := do
  let n ← ofRoute (r.table.nodeFor bucket k)
  .ok (.direct n c)

/-- Sends the command to all nodes of the bucket's cluster. -/
def toAll (r : Router) (c : Command) (bucket : String) (merge : Merge) :
    Except ClusterError Plan := do
  let ns ← ofRoute (r.table.clusterNodes bucket)
  .ok ⟨ns.val.map (·, c), merge⟩

/-- Sends the command to the coordinator's node, which its cluster must list. -/
def toListedSelf (r : Router) (c : Command) : Except ClusterError Plan := do
  let n ← ofRoute r.listedSelf
  .ok (.direct n c)

/-- How the command is carried out. -/
def plan (r : Router) (c : Command) : Except ClusterError Plan := do
  let _ ← ofStore (r.operators.filter c.operation.predicate?)
  match c.operation with
  | .getBuckets => .ok (.direct r.self c)
  | .getValue b k _ => r.toOwner c b k
  | .putValue b k _ _ => r.toOwner c b k
  | .removeValue b k => r.toOwner c b k
  | .updateValue b k _ => r.toOwner c b k
  | .getValues b ks _ => do
    let shares ← ofRoute (r.table.nodesFor b ks)
    .ok ⟨shares.map fun (n, share) => (n, c.narrowed share), .values⟩
  | .getKeys b => r.toAll c b .keys
  | .predicateQuery b _ => r.toAll c b .values
  | .rangeQuery b range _ => do
    let order ← ofStore (r.operators.comparator range.comparatorName)
    r.toAll c b (.entries order range)
  | .removeBucket b => r.toAll c b .done
  | .importBackup .. => r.toListedSelf c
  | .exportBackup .. => r.toListedSelf c

end Router

end BucketCluster
