import BucketCluster.Answer
import BucketCluster.Failure

/-!
# Fan-out

A coordinator sends to several nodes at once and takes what comes back as it
comes.  Either all sends succeed, or the first one to fail decides: there are no
partial answers.
-/

namespace BucketCluster

/-- How a send ended. -/
inductive SendOutcome where
  | answered (answer : Answer)
  | failed (error : ClusterError)
  /-- The send itself crashed. -/
  | crashed (reason : String)
deriving DecidableEq

namespace SendOutcome

/-- What the coordinator makes of it. -/
def result : SendOutcome → Except ClusterError Answer
  | answered a => .ok a
  | failed e => .error e
  | crashed reason => .error (.processing (.panicked reason))

/-- The outcome of a send to a node that replied. -/
def ofReply : Reply → SendOutcome
  | .ok a => .answered a
  | .error e => .failed (.processing e)

/-- All answers in the order in which they came, or the first failure. -/
def collect (outcomes : List SendOutcome) : Except ClusterError (List Answer) :=
  outcomes.mapM result

end SendOutcome

end BucketCluster
