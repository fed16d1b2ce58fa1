import BucketCluster.Message
import BucketCluster.Routing.SocketAddress

/-!
# Ensembles

The description that all nodes share: the clusters with their members, the
number of partitions, and the buckets that are pinned to a cluster.

A description is accepted if it has partitions, no cluster and no member has a
name twice (members counted over all clusters), and buckets are pinned to
clusters that exist.
-/

namespace BucketCluster

/-- A member as configured. -/
structure Member where
  name : String
  address : SocketAddress
deriving DecidableEq, Repr

/-- A cluster as configured. -/
structure ClusterPlan where
  name : String
  members : List Member
deriving DecidableEq, Repr

/-- The configuration of all clusters. -/
structure Ensemble where
  partitions : UInt32
  clusters : List ClusterPlan
  /-- Bucket name to cluster name. -/
  pins : SortedMap String String
deriving DecidableEq

/-- Why a configuration was refused. -/
inductive EnsembleError where
  | unreadable (reason : String)
  | unparsable (fault : Json.Fault)
  | duplicateCluster (name : String)
  | duplicateNode (name : String)
  | unknownPlacement (bucket cluster : String)
  | noPartitions
deriving DecidableEq, Repr

def EnsembleError.message : EnsembleError → String
  | unreadable r => s!"cannot read ensemble file: {r}"
  | unparsable f => s!"cannot parse ensemble file: {f.message}"
  | duplicateCluster n => s!"duplicate cluster '{n}'"
  | duplicateNode n => s!"duplicate node '{n}'"
  | unknownPlacement b c => s!"bucket '{b}' is pinned to unknown cluster '{c}'"
  | noPartitions => "partition count must be greater than zero"

/-! ## Reading -/

def SocketAddress.schema : Schema SocketAddress :=
  .refine .text SocketAddress.parse? SocketAddress.text

def Member.schema : Schema Member :=
  .record
    (.field "name" .text .none <|
     .field "address" SocketAddress.schema .none .nil)
    (fun (n, a, _) => ⟨n, a⟩) (fun m => (m.name, m.address, ()))

def ClusterPlan.schema : Schema ClusterPlan :=
  .record
    (.field "name" .text .none <|
     .field "nodes" (.list Member.schema) (.anywhere []) .nil)
    (fun (n, ms, _) => ⟨n, ms⟩) (fun c => (c.name, c.members, ()))

namespace Ensemble

/-- The members of all clusters. -/
def members (e : Ensemble) : List Member := e.clusters.flatMap (·.members)

/-- The member of the given name. -/
def member? (e : Ensemble) (name : String) : Option Member := e.members.find? (·.name == name)

/-- How many partitions there are if the configuration does not say. -/
def defaultPartitions : UInt32 := 1024

def schema : Schema Ensemble :=
  .record
    (.field "partitions" .word32 (.anywhere defaultPartitions) <|
     .field "clusters" (.list ClusterPlan.schema) .none <|
     .field "buckets" (.textMap .text) (.anywhere ∅) .nil)
    (fun (p, cs, b, _) => ⟨p, cs, b⟩) (fun e => (e.partitions, e.clusters, e.pins, ()))

/-! ## Checking -/

/-- Checks the members of a cluster against the names seen so far. -/
def checkMembers (seen : List String) : List Member → Except EnsembleError (List String)
  | [] => .ok seen
  | m :: ms =>
    if seen.contains m.name then .error (.duplicateNode m.name)
    else checkMembers (m.name :: seen) ms

/-- Checks the clusters against the cluster and member names seen so far. -/
def checkClusters (clusters members : List String) :
    List ClusterPlan → Except EnsembleError (List String)
  | [] => .ok clusters
  | c :: cs =>
    if clusters.contains c.name then .error (.duplicateCluster c.name)
    else do
      let members ← checkMembers members c.members
      checkClusters (c.name :: clusters) members cs

/-- Checks that pins name clusters. -/
def checkPins (clusters : List String) : List (String × String) → Except EnsembleError Unit
  | [] => .ok ()
  | (bucket, cluster) :: pins =>
    if clusters.contains cluster then checkPins clusters pins
    else .error (.unknownPlacement bucket cluster)

/-- Accepts a configuration or says what is wrong with it. -/
def validate (e : Ensemble) : Except EnsembleError Unit :=
  if e.partitions = 0 then .error .noPartitions
  else do
    let clusters ← checkClusters [] [] e.clusters
    checkPins clusters e.pins.entries

/-- The accepted configuration that a text describes. -/
def parse (bs : Bytes) : Except EnsembleError Ensemble :=
  match schema.parse bs with
  | .error fault => .error (.unparsable fault)
  | .ok e => (validate e).map fun _ => e

/-- The accepted configuration in a file; `none` if there is no file. -/
def ofFile (content : Option Bytes) : Except EnsembleError Ensemble :=
  match content with
  | none => .error (.unreadable "no such file")
  | some bs =>
    match Utf8.decode? bs with
    | none => .error (.unreadable "file is not UTF-8")
    | some _ => parse bs

end Ensemble

end BucketCluster
