import BucketCluster.Operators
import BucketCluster.Routing.Ensemble
import BucketCluster.Routing.Node
import BucketCluster.Routing.Partitioning

/-!
# Routing tables

Who owns what: the clusters in name order, the nodes of each in name order, and
the buckets pinned to a cluster.  A bucket belongs to the cluster it is pinned
to, or else to the one its hash picks; a key to the node that its partition
picks among the nodes of that cluster.

A table is a value; a change of topology makes a new one.
-/

namespace BucketCluster

/-- Ownership of buckets and keys. -/
structure RoutingTable where
  partitioning : Partitioning
  /-- In name order. -/
  clusters : List Cluster
  /-- The nodes of each cluster, in name order. -/
  nodes : SortedMap String (List Node)
  /-- Bucket name to cluster name. -/
  pins : SortedMap String String

namespace RoutingTable

/-! ## Building -/

/-- The table without clusters. -/
def empty (partitions : UInt32) : RoutingTable := ⟨.ofCount partitions, [], ∅, ∅⟩

/-- Adds a cluster, in place of one of the same name. -/
def withCluster (t : RoutingTable) (c : Cluster) (ns : List Node) : RoutingTable :=
  { t with
    clusters := (t.clusters.filter (fun c' => !c'.same c) ++ [c]).mergeSort
      fun a b => (compare a.name b.name).isLE
    nodes := t.nodes.insert c.name (Node.dedup (Node.sort ns)) }

/-- Pins a bucket to the cluster of the given name. -/
def withPin (t : RoutingTable) (bucket cluster : String) : RoutingTable :=
  { t with pins := t.pins.insert bucket cluster }

/-- A configured cluster as the process of `self` sees it. -/
def seenCluster (self : Node) (c : ClusterPlan) : Cluster := ⟨c.name, c.name == self.cluster.name⟩

/-- A configured member as the process of `self` sees it: itself under its own
name in its own cluster, a remote node otherwise. -/
def seenMember (self : Node) (c : ClusterPlan) (m : Member) : Node :=
  if (seenCluster self c).isLocal && m.name == self.name then self
  else ⟨m.name, m.address, seenCluster self c, false⟩

/-- The table that an ensemble describes, as the process of `self` sees it. -/
def ofEnsemble (e : Ensemble) (self : Node) : RoutingTable :=
  let t := e.clusters.foldl
    (fun t c => t.withCluster (seenCluster self c) (c.members.map (seenMember self c)))
    (empty e.partitions)
  e.pins.entries.foldl (fun t pin => t.withPin pin.1 pin.2) t

/-! ## Looking up -/

/-- The node of the given name. -/
def node? (t : RoutingTable) (name : String) : Option Node :=
  t.nodes.values.flatten.find? (·.name == name)

/-- The first local cluster. -/
def localCluster? (t : RoutingTable) : Option Cluster := t.clusters.find? (·.isLocal)

/-- How many nodes all clusters have together. -/
def nodeCount (t : RoutingTable) : Nat := (t.nodes.values.map (·.length)).foldr (· + ·) 0

/-- The cluster that a bucket is pinned to, if the table has it. -/
def pinnedCluster? (t : RoutingTable) (bucket : String) : Option Cluster := do
  let name ← t.pins.get? bucket
  t.clusters.find? (·.name == name)

/-- The cluster that owns a bucket. -/
def clusterFor (t : RoutingTable) (bucket : String) : Except RouteError Cluster :=
  match t.pinnedCluster? bucket with
  | some c => .ok c
  | none =>
    if h : 0 < t.clusters.length then
      .ok
        (t.clusters.get ⟨Partitioning.slotOf bucket t.clusters.length,
          Partitioning.slotOf_lt bucket h⟩)
    else .error (.noCluster bucket)

/-- The nodes of a cluster, of which there is one at least. -/
def nodesOf (t : RoutingTable) (c : Cluster) :
    Except RouteError { ns : List Node // 0 < ns.length } :=
  let ns := (t.nodes.get? c.name).getD []
  if h : 0 < ns.length then .ok ⟨ns, h⟩ else .error (.emptyCluster c.name)

/-- The nodes of the cluster that owns a bucket. -/
def clusterNodes (t : RoutingTable) (bucket : String) :
    Except RouteError { ns : List Node // 0 < ns.length } := do
  let c ← t.clusterFor bucket
  t.nodesOf c

/-- The place of a key's owner among `members` nodes. -/
def ownerIndex (t : RoutingTable) (bucket : String) (members : Nat) (k : Key) : Nat :=
  Partitioning.ownerOf (t.partitioning.partitionOf bucket k) members

/-- The owner of a key among the nodes of its cluster. -/
def owner (t : RoutingTable) (bucket : String) (ns : { ns : List Node // 0 < ns.length })
    (k : Key) : Node :=
  ns.val.get ⟨t.ownerIndex bucket ns.val.length k, Partitioning.ownerOf_lt _ ns.property⟩

/-- The node that owns a key. -/
def nodeFor (t : RoutingTable) (bucket : String) (k : Key) : Except RouteError Node := do
  let ns ← t.clusterNodes bucket
  .ok (t.owner bucket ns k)

/-- The keys split by owner, in the order of the nodes; nodes that own none of
the keys are left out. -/
def nodesFor (t : RoutingTable) (bucket : String) (ks : KeySet) :
    Except RouteError (List (Node × KeySet)) := do
  let ns ← t.clusterNodes bucket
  .ok (ns.val.zipIdx.filterMap fun (n, i) =>
    let share := ks.filter fun k _ => t.ownerIndex bucket ns.val.length k == i
    if share.isEmpty then none else some (n, share))

/-- The node of the given name in the local cluster. -/
def localNode (t : RoutingTable) (name : String) : Except RouteError Node :=
  match t.localCluster? with
  | none => .error .noLocalCluster
  | some c =>
    match ((t.nodes.get? c.name).getD []).find? (·.name == name) with
    | some n => .ok n
    | none => .error .noLocalCluster

end RoutingTable

/-! ## Routers -/

/-- What a coordinator routes by: the node of its own process, the current table, and the
operators it merges partial answers with. -/
structure Router where
  self : Node
  table : RoutingTable
  operators : Operators

/-- The node of the router's own process as its local cluster lists it. -/
def Router.listedSelf (r : Router) : Except RouteError Node := r.table.localNode r.self.name

end BucketCluster
