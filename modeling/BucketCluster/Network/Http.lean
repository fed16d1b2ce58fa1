import BucketCluster.Message

/-!
# Commands over HTTP

Where two nodes are not in one process, a command travels as the body of a request
and the reply as the body of the response.  This is what the node at the other end
answers, and what the client makes of whatever happens on the way: only a response
that says success carries a reply; any other status is a protocol error, and a
response that does not come, or not in time, or not as a whole, makes the node
unreachable.

Time is not modelled: the client may give up at any moment.
-/

namespace BucketCluster

/-- The answer to a request. -/
structure Response where
  status : Nat
  contentType : String
  body : Bytes
deriving DecidableEq

/-! ## The node -/

namespace Service

/-- The content type of what nodes send each other. -/
def binaryType : String := "application/octet-stream"

def textType : String := "text/plain; charset=utf-8"

/-- A reply, told to another node. -/
def ofReply (r : Reply) : Response := ⟨200, binaryType, Reply.schema.encode r⟩

/-- Bytes that are no command. -/
def badRequest (fault : Wire.Fault) : Response := ⟨400, textType, Utf8.encode fault.message⟩

/-- The server takes no longer body. -/
def bodyLimit : Nat := 2 * 1024 * 1024

def tooLarge : Response := ⟨413, textType, Utf8.encode "length limit exceeded"⟩

/-- The command in the body of a request, or the answer without one. -/
def accept (body : Bytes) : Except Response Command :=
  if bodyLimit < body.length then .error tooLarge
  else (Command.schema.decodeFront body).mapError badRequest

end Service

/-! ## The client -/

/-- A status, with the words that go with it. -/
structure HttpStatus where
  code : Nat
  phrase : String
deriving DecidableEq, Repr

namespace HttpStatus

/-- The statuses with which a node answers others. -/
def ofCode : Nat → HttpStatus
  | 200 => ⟨200, "OK"⟩
  | 400 => ⟨400, "Bad Request"⟩
  | 413 => ⟨413, "Payload Too Large"⟩
  | code => ⟨code, "<unknown status code>"⟩

def isSuccess (s : HttpStatus) : Bool := 200 ≤ s.code && s.code < 300

def text (s : HttpStatus) : String := s!"{s.code} {s.phrase}"

end HttpStatus

/-- How a request ends for the client. -/
inductive HttpReport where
  /-- There is no response: nobody listens, the connection breaks, or the time is up. -/
  | failed (reason : String)
  /-- A response, and its body unless that breaks off. -/
  | response (status : HttpStatus) (body : Except String Bytes)

namespace HttpReport

/-- The response as a node has given it. -/
def ofResponse (r : Response) : HttpReport := .response (.ofCode r.status) (.ok r.body)

/-- The bytes that the node has sent. -/
def received (node : String) : HttpReport → Except LinkError Bytes
  | failed reason => .error (.unreachable node reason)
  | response status body =>
    if status.isSuccess then body.mapError (.unreachable node)
    else .error (.protocol node s!"HTTP {status.text}")

end HttpReport

end BucketCluster
