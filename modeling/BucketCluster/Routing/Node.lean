import BucketCluster.Routing.SocketAddress
import BucketCluster.Text.Unassigned

/-!
# Nodes and clusters

A node is a process that stores documents; a cluster is a named group of nodes.
Both are told apart by their names alone: where a node listens, and whether the
process that looks at a node or cluster belongs to it, is not part of who it is.
-/

namespace BucketCluster

/-- A cluster as one process sees it: `isLocal` if the process belongs to it. -/
structure Cluster where
  name : String
  isLocal : Bool
deriving DecidableEq, Repr, Inhabited

/-- A node as one process sees it: `inProcess` if it is the process itself. -/
structure Node where
  name : String
  address : SocketAddress
  cluster : Cluster
  inProcess : Bool
deriving DecidableEq, Repr

/-- Same name. -/
def Cluster.same (a b : Cluster) : Bool := a.name == b.name

namespace Node

/-- Same name. -/
def same (a b : Node) : Bool := a.name == b.name

/-- By name. -/
def order (a b : Node) : Ordering := compare a.name b.name

/-- Name and address. -/
def text (n : Node) : String := n.name ++ "@" ++ n.address.text

/-- In name order; nodes of one name stay in place. -/
def sort (ns : List Node) : List Node := ns.mergeSort fun a b => (a.order b).isLE

/-- Leaves out every node that follows one of the same name. -/
def dedupAux (previous : Node) : List Node → List Node
  | [] => []
  | n :: ns => if previous.same n then dedupAux previous ns else n :: dedupAux n ns

/-- Leaves out every node that follows one of the same name. -/
def dedup : List Node → List Node
  | [] => []
  | n :: ns => n :: dedupAux n ns

/-! ## Description for logs -/

/-- A character inside quotes; one that could not be read there is spelled by its
number. -/
def quoteChar (c : Char) : List Char :=
  if c = '"' then ['\\', '"']
  else if c = '\\' then ['\\', '\\']
  else if c = '\n' then ['\\', 'n']
  else if c = '\r' then ['\\', 'r']
  else if c = '\t' then ['\\', 't']
  else if c = '\x00' then ['\\', '0']
  else if Text.isMark c || Text.isInvisible c || Text.isUnassigned c then
    "\\u\x7b".toList ++ Nat.toDigits 16 c.toNat ++ ['\x7d']
  else [c]

/-- A text in quotes, with escapes. -/
def quoted (s : String) : String :=
  String.ofList ('"' :: (s.toList.flatMap quoteChar ++ ['"']))

/-- All that is known of a node. -/
def describe (n : Node) : String :=
  "Node \x7b id: NodeId(" ++ quoted n.name ++ "), address: " ++ n.address.text ++
    ", cluster: " ++ quoted n.cluster.name ++ ", local: " ++
    (if n.inProcess then "true" else "false") ++ " \x7d"

end Node

end BucketCluster
