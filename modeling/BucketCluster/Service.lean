import BucketCluster.Network.Settle

/-!
# The service of a node

What a node answers to the requests of clients, of other nodes, and of those who
run it: a status, a content type and a body.  Clients speak JSON; nodes send each
other the binary form of commands and replies.
-/

namespace BucketCluster

namespace Service

/-! ## Where and how -/

def commandPath : String := "/commands"

def internalPath : String := "/internal/command"

def pausePath : String := "/internal/executor/pause"

def resumePath : String := "/internal/executor/resume"

def statsPath : String := "/internal/executor/stats"

def jsonType : String := "application/json"

/-! ## Clients -/

/-- The family of an error. -/
def errorKind : ClusterError → String
  | .missingRoute _ => "missing_route"
  | .communication _ => "communication"
  | .processing _ => "processing"

/-- The status that stands for the family of an error. -/
def errorStatus : ClusterError → Nat
  | .missingRoute _ => 503
  | .communication _ => 502
  | .processing _ => 500

/-- An error, told to a client. -/
def ofError (e : ClusterError) : Response :=
  ⟨errorStatus e, jsonType,
    Json.writeObject [("kind", Json.quote (errorKind e)), ("message", Json.quote e.message)]⟩

/-- An answer, told to a client.  Only a map with a key that is no text has no
JSON form, and what stands there instead is an excuse. -/
def ofAnswer (a : Answer) : Response :=
  match Answer.schema.write a with
  | some text => ⟨200, jsonType, text⟩
  | none => ⟨200, textType, Utf8.encode "key must be a string"⟩

/-- The outcome of a command, told to a client. -/
def ofResult : Except ClusterError Answer → Response
  | .ok a => ofAnswer a
  | .error e => ofError e

/-- Text that is no command: it is not JSON, or JSON of another shape. -/
def refused (fault : Json.Fault) : Response :=
  ⟨if fault = .mismatched then 422 else 400, textType, Utf8.encode fault.message⟩

/-- Has a command of a client carried out. -/
def command (n : Network) (r : Router) (text : Bytes) : Option Response × Network :=
  match Command.schema.parse text with
  | .error fault => (some (refused fault), n)
  | .ok c =>
    let (answer, n) := n.resolve r c
    (answer.map ofResult, n)

/-! ## Other nodes -/

/-- Carries out a command that another node has sent. -/
def internalCommand (n : Network) (name : String) (bs : Bytes) : Option Response × Network :=
  match Command.schema.decodeFront bs with
  | .error fault => (some (badRequest fault), n)
  | .ok c =>
    match n.processors.get? name with
    | none => (none, n)
    | some x =>
      let n := n.operate name (·.submit c)
      let reply := (n.processors.get? name).bind (·.reply? x.submissions.length)
      (reply.map ofReply, n)

/-! ## Running the node -/

def modeSchema : Schema Mode := .choice <|
  .unit "Running" .running (· matches .running) <|
  .unit "Paused" .paused (· matches .paused) <|
  .unit "Shutdown" .shutdown (· matches .shutdown) .nil

def statsSchema : Schema ExecutorStats :=
  .record
    (.field "state" modeSchema .none <|
     .field "queued" .word64 .none <|
     .field "active" .word64 .none <|
     .field "workers" .word64 .none .nil)
    (fun (m, q, a, w, _) => ⟨m, q.toNat, a.toNat, w.toNat⟩)
    (fun s => (s.mode, .ofNat s.queued, .ofNat s.active, .ofNat s.workers, ()))

def ofStats (s : ExecutorStats) : Response := ⟨200, jsonType, (statsSchema.write s).getD []⟩

/-- Reports of the executor of a node. -/
def stats (n : Network) (name : String) : Option Response := (n.stats? name).map ofStats

/-- Pauses a node and reports when it rests. -/
def pause (n : Network) (name : String) : Option Response × Network :=
  let n := n.pause name
  (stats n name, n)

/-- Lets a node run again. -/
def resume (n : Network) (name : String) : Option Response × Network :=
  let n := n.resume name
  (stats n name, n)

/-! ## Requests -/

/-- A path that is none of the above. -/
def notFound : Response := ⟨404, textType, []⟩

/-- What the node of a router answers to a request, unless it has to wait for a
node that is paused. -/
def answer (n : Network) (r : Router) (path : String) (body : Bytes) : Option Response × Network :=
  if path = commandPath then command n r body
  else if path = internalPath then internalCommand n r.self.name body
  else if path = pausePath then pause n r.self.name
  else if path = resumePath then resume n r.self.name
  else if path = statsPath then (stats n r.self.name, n)
  else (some notFound, n)

end Service

end BucketCluster
