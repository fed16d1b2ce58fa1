import BucketCluster.Network.Step

/-!
# Settling a network

Lets a network move until every node rests and every reply that there is has
arrived.  All sends that are ready go out in the order of the requests, then the
nodes settle, then replies come in in the order of the sends.  What an answered
request does not need is cancelled at once.
-/

namespace BucketCluster.Network

/-- An event for every send of the requests that have no answer; should it bring the
answer, all other sends are cancelled. -/
def openSends (event : Nat → Nat → Event) (n : Network) : List Event :=
  n.requests.zipIdx.flatMap fun (r, i) =>
    let places := if r.answer.isSome then [] else List.range r.sends.length
    places.flatMap fun j => event i j :: places.map (.cancel i)

/-- Takes the steps that can be taken. -/
def tryAll (n : Network) (es : List Event) : Network := es.foldl (fun n e => (n.step e).getD n) n

/-- All nodes move until none can. -/
def settleNodes (n : Network) : Network :=
  { n with processors := n.processors.map fun _ x => x.settle Store.handler }

/-- The network when all that can happen has happened. -/
def settle (n : Network) : Network :=
  let n := (n.tryAll (n.openSends .send)).settleNodes
  n.tryAll (n.openSends .receive)

/-- Begins a request, and gives its number and the network at rest. -/
def ask (n : Network) (plan : Except ClusterError Plan) : Nat × Network :=
  (n.requests.length, settle { n with requests := n.requests ++ [.ofPlan plan] })

/-- The answer to a request, if there is one yet. -/
def answer? (n : Network) (number : Nat) : Option (Except ClusterError Answer) := do
  let r ← n.requests[number]?
  r.answer

/-- Has the coordinator with the given router carry out a command, and gives the
answer unless a paused node keeps it waiting. -/
def resolve (n : Network) (r : Router) (c : Command) :
    Option (Except ClusterError Answer) × Network :=
  let (number, n) := n.ask (r.plan c)
  (n.answer? number, n)

/-! ## Running nodes -/

/-- Changes the executor of a node, and lets the network settle. -/
def operate (n : Network) (name : String) (change : Processor → Processor) : Network :=
  match n.processors.get? name with
  | some x => (n.setProcessor name (change x)).settle
  | none => n

def pause (n : Network) (name : String) : Network := n.operate name .pause

def resume (n : Network) (name : String) : Network := n.operate name .resume

def shutdown (n : Network) (name : String) : Network := n.operate name .shutdown

/-- What the executor of a node reports. -/
def stats? (n : Network) (name : String) : Option ExecutorStats :=
  (n.processors.get? name).map (·.stats)

/-- The store of a node. -/
def store? (n : Network) (name : String) : Option Store := (n.processors.get? name).map (·.store)

/-- Changes the store of a node from outside. -/
def modifyStore (n : Network) (name : String) (change : Store → Store) : Network :=
  match n.processors.get? name with
  | some x => n.setProcessor name { x with store := change x.store }
  | none => n

end BucketCluster.Network
