import BucketCluster.Coordination.FanOut
import BucketCluster.Coordination.Plan
import BucketCluster.Executor.Settle
import BucketCluster.Network.Http
import BucketCluster.Store.Apply

/-!
# Networks

The nodes of a cluster with the links between them, and the requests that
coordinators are working on.

Every node has a store and an executor that carries out commands on it.  A
coordinator reaches its own node directly and all others over links, where
commands and replies travel as bytes, passed on within a process or over HTTP.  A
link that is down makes its node unreachable; a scripted link answers in place of
the node, which is how faults are rehearsed.
-/

namespace BucketCluster

/-! ## Nodes -/

/-- The executor of a node, over its store. -/
abbrev Processor := Executor Store Command

/-- Carries out a command. -/
def Store.handler : Handler Store Command := fun c s =>
  let (reply, s) := s.handle c
  some (.answered reply, s)

/-! ## Links -/

/-- How a node is reached. -/
inductive Link where
  /-- All nodes are in one process, and bytes are passed on. -/
  | loopback
  /-- Over HTTP; the client says so if nobody listens. -/
  | http (refusal : String)
deriving DecidableEq, Repr

/-- What a scripted link does. -/
inductive Script where
  /-- Answers with these bytes. -/
  | reply (bytes : Bytes)
  | unreachable (reason : String)
  | protocol (reason : String)
  /-- Crashes the send. -/
  | crash (reason : String)
deriving DecidableEq, Repr

/-- The node cannot be reached. -/
def SendOutcome.unreachable (node reason : String) : SendOutcome :=
  .failed (.communication (.unreachable node reason))

/-- What came from the node, or arrived there, makes no sense. -/
def SendOutcome.protocol (node reason : String) : SendOutcome :=
  .failed (.communication (.protocol node reason))

/-- The outcome of a send that brought back bytes. -/
def SendOutcome.ofBytes (node : String) (bs : Bytes) : SendOutcome :=
  match Reply.schema.decodeFront bs with
  | .ok reply => .ofReply reply
  | .error fault => .protocol node fault.message

/-- The outcome of a send of which the client reports this. -/
def HttpReport.outcome (node : String) (report : HttpReport) : SendOutcome :=
  match report.received node with
  | .ok bs => .ofBytes node bs
  | .error e => .failed (.communication e)

/-- The outcome of a send to which the node has replied over the link. -/
def Link.outcome (node : String) (reply : Reply) : Link → SendOutcome
  | loopback => .ofBytes node (Reply.schema.encode reply)
  | http _ => (HttpReport.ofResponse (Service.ofReply reply)).outcome node

/-- The outcome of a send over a scripted link. -/
def Script.outcome (node : String) : Script → SendOutcome
  | reply bs => .ofBytes node bs
  | unreachable reason => .unreachable node reason
  | protocol reason => .protocol node reason
  | crash reason => .crashed reason

/-! ## Requests -/

/-- How far a send has come. -/
inductive Sending where
  | ready
  /-- Its job is at the node, under the given number. -/
  | waiting (number : Nat)
  | ended
  /-- It has ended for its coordinator, and the command is still on its way. -/
  | stray
  /-- Nobody waits for it any more; its job, if it has one, stays at the node. -/
  | abandoned
deriving DecidableEq, Repr

/-- A command on its way to a node. -/
structure Send where
  node : Node
  command : Command
  sending : Sending

/-- The send is still to go out or waited for. -/
def Send.isOpen (s : Send) : Bool :=
  match s.sending with
  | .ready => true
  | .waiting _ => true
  | _ => false

/-- A request that a coordinator is working on or has answered. -/
structure Request where
  sends : List Send
  merge : Merge
  /-- How sends ended, in the order in which they did, until there was an answer. -/
  outcomes : List SendOutcome
  answer : Option (Except ClusterError Answer)

namespace Request

/-- Answers the request if the outcomes so far decide it. -/
def conclude (r : Request) : Request :=
  match SendOutcome.collect r.outcomes with
  | .error e => { r with answer := some (.error e) }
  | .ok answers =>
    if r.outcomes.length = r.sends.length then
      { r with answer := some ((r.merge.answer answers).mapError .processing) }
    else r

/-- A request for which nothing has been sent yet. -/
def ofPlan : Except ClusterError Plan → Request
  | .ok p => conclude ⟨p.sends.map fun (n, c) => ⟨n, c, .ready⟩, p.merge, [], none⟩
  | .error e => ⟨[], .done, [], some (.error e)⟩

/-- The send in place `j` has come this far. -/
def setSending (r : Request) (j : Nat) (s : Send) (sending : Sending) : Request :=
  { r with sends := r.sends.set j { s with sending := sending } }

/-- The send in place `j` has ended and is left like this.  Once the request is
answered, nobody asks for its outcome. -/
def record (r : Request) (j : Nat) (s : Send) (o : SendOutcome) (left : Sending := .ended) :
    Request :=
  let r := r.setSending j s left
  if r.answer.isSome then r else conclude { r with outcomes := r.outcomes ++ [o] }

end Request

/-! ## The network -/

/-- Nodes, links and requests. -/
structure Network where
  processors : SortedMap String Processor
  /-- The nodes that can be reached, and how. -/
  attached : SortedMap String Link
  /-- The links that are scripted. -/
  scripts : SortedMap String Script
  requests : List Request

namespace Network

def empty : Network := ⟨∅, ∅, ∅, []⟩

/-- Adds a node that can be reached. -/
def withNode (n : Network) (name : String) (x : Processor) : Network :=
  { n with
    processors := n.processors.insert name x
    attached := n.attached.insert name .loopback }

/-- The members of an ensemble and one more node, all in the same state. -/
def ofEnsemble (e : Ensemble) (name : String) (x : Processor) : Network :=
  (name :: e.members.map (·.name)).foldl (fun n name => n.withNode name x) empty

/-- Another state of the executor of a node. -/
def setProcessor (n : Network) (name : String) (x : Processor) : Network :=
  { n with processors := n.processors.insert name x }

/-- From now on the node is reached over the link. -/
def attach (n : Network) (name : String) (link : Link) : Network :=
  { n with attached := n.attached.insert name link }

def connect (n : Network) (name : String) : Network := n.attach name .loopback

def disconnect (n : Network) (name : String) : Network :=
  { n with attached := n.attached.erase name }

/-- Puts the link to a node under a script, or back to work. -/
def script (n : Network) (name : String) : Option Script → Network
  | some s => { n with scripts := n.scripts.insert name s }
  | none => { n with scripts := n.scripts.erase name }

end Network

end BucketCluster
