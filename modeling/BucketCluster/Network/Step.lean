import BucketCluster.Network.Basic

/-!
# Steps of a network

Nodes move on their own, requests come in, and every send of a request takes two
steps: its command arrives at the node, and later its reply arrives at the
coordinator.  Over HTTP a send may fail at any time, wherever the command is by
then.

A request is answered with the step that decides it.  Its other sends are cancelled
after that, one by one, and until a send is cancelled it goes on: a task that runs
on another thread does not stop at once.  A send over HTTP counts as cancelled when
its command can no longer arrive.  What has become a job stays one.
-/

namespace BucketCluster.Network

/-- What happens in a network. -/
inductive Event where
  | node (name : String) (event : Executor.Event Command)
  | request (plan : Except ClusterError Plan)
  /-- The send `j` of request `i` gets to its node. -/
  | send (i j : Nat)
  /-- The reply to the send `j` of request `i` comes in. -/
  | receive (i j : Nat)
  /-- The client gives up the send `j` of request `i`. -/
  | fail (i j : Nat) (report : HttpReport)
  /-- The send `j` of request `i` is cancelled. -/
  | cancel (i j : Nat)

/-! ## Sending -/

/-- Why a node without a link is unreachable. -/
def notAttached : String := "not registered on loopback transport"

/-- Hands a command to the executor of a node. -/
def submit (n : Network) (name : String) (c : Command) (absent : String) :
    Except SendOutcome (Nat × Network) :=
  match n.processors.get? name with
  | some x => .ok (x.submissions.length, n.setProcessor name (x.submit c))
  | none => .error (.unreachable name absent)

/-- Takes a command over the link to a node. -/
def transmit (n : Network) (name : String) (c : Command) : Except SendOutcome (Nat × Network) :=
  match n.scripts.get? name with
  | some s => .error (s.outcome name)
  | none =>
    match n.attached.get? name with
    | some .loopback =>
      match Command.schema.decodeFront (Command.schema.encode c) with
      | .ok c => n.submit name c notAttached
      | .error fault => .error (.protocol name fault.message)
    | some (.http refusal) =>
      match Service.accept (Command.schema.encode c) with
      | .ok c => n.submit name c refusal
      | .error response => .error ((HttpReport.ofResponse response).outcome name)
    | none => .error (.unreachable name notAttached)

/-- Takes a command to a node: the number of its job there, or how the send ended
before it got there. -/
def dispatch (n : Network) (node : Node) (c : Command) : Except SendOutcome (Nat × Network) :=
  if node.inProcess then n.submit node.name c notAttached else n.transmit node.name c

/-- The outcome of a send to which the node has replied. -/
def outcomeOf (n : Network) (node : Node) (reply : Reply) : SendOutcome :=
  if node.inProcess then .ofReply reply
  else ((n.attached.get? node.name).getD .loopback).outcome node.name reply

/-- Why a send over HTTP has failed. -/
def linkFailure? (n : Network) (node : Node) (report : HttpReport) : Option LinkError :=
  match node.inProcess, n.attached.get? node.name, report.received node.name with
  | false, some (.http _), .error e => some e
  | _, _, _ => none

/-! ## Steps -/

/-- Another state of a request. -/
def setRequest (n : Network) (i : Nat) (r : Request) : Network :=
  { n with requests := n.requests.set i r }

/-- A send that has not gone out does so. -/
def sendStep (n : Network) (i j : Nat) : Option Network := do
  let r ← n.requests[i]?
  let s ← r.sends[j]?
  match s.sending with
  | .ready =>
    match n.dispatch s.node s.command with
    | .ok (number, n) => some (n.setRequest i (r.setSending j s (.waiting number)))
    | .error o => some (n.setRequest i (r.record j s o))
  | .stray =>
    match n.dispatch s.node s.command with
    | .ok (_, n) => some (n.setRequest i (r.setSending j s .abandoned))
    | .error _ => some (n.setRequest i (r.setSending j s .abandoned))
  | _ => none

/-- A send to which the node has replied ends. -/
def receiveStep (n : Network) (i j : Nat) : Option Network := do
  let r ← n.requests[i]?
  let s ← r.sends[j]?
  match s.sending with
  | .waiting number => do
    let x ← n.processors.get? s.node.name
    let reply ← x.reply? number
    some (n.setRequest i (r.record j s (n.outcomeOf s.node reply)))
  | _ => none

/-- A send over HTTP ends without a reply. -/
def failStep (n : Network) (i j : Nat) (report : HttpReport) : Option Network := do
  let r ← n.requests[i]?
  let s ← r.sends[j]?
  let e ← n.linkFailure? s.node report
  match s.sending with
  | .ready => some (n.setRequest i (r.record j s (.failed (.communication e)) .stray))
  | .waiting _ => some (n.setRequest i (r.record j s (.failed (.communication e)) .abandoned))
  | _ => none

/-- A send that an answered request does not need is let go of. -/
def cancelStep (n : Network) (i j : Nat) : Option Network := do
  let r ← n.requests[i]?
  let s ← r.sends[j]?
  if r.answer.isSome && s.isOpen then some (n.setRequest i (r.setSending j s .abandoned)) else none

/-- One step. -/
def step (n : Network) : Event → Option Network
  | .node name e => do
    let x ← n.processors.get? name
    let x ← x.step Store.handler e
    some (n.setProcessor name x)
  | .request plan => some { n with requests := n.requests ++ [.ofPlan plan] }
  | .send i j => n.sendStep i j
  | .receive i j => n.receiveStep i j
  | .fail i j report => n.failStep i j report
  | .cancel i j => n.cancelStep i j

end BucketCluster.Network
