/-!
# Failures

Everything that can go wrong with a command falls into three families: no route
(the table names no node for it), no communication (a node was not reached, or
answered with something that is no reply), and processing (the command reached
its node and failed there).  Store errors are processing failures and travel
between nodes as they are.

Each type has one function with its wording.
-/

namespace BucketCluster

/-- What goes wrong inside a store. -/
inductive StoreError where
  | unsatisfiableCondition (condition : String)
  | unknownComparator (comparator : String)
  | unknownFunction (function : String)
  | invalidPredicate (expression : String)
  | conditionFailed (bucket key : String)
  | keyNotFound (bucket key : String)
  | timeout (function : String)
  | backup (reason : String)
  | malformed (reason : String)
deriving DecidableEq, Repr

def StoreError.message : StoreError → String
  | unsatisfiableCondition c => s!"no condition registered under '{c}'"
  | unknownComparator c => s!"no comparator registered under '{c}'"
  | unknownFunction f => s!"no update function registered under '{f}'"
  | invalidPredicate e => s!"invalid predicate '{e}', expected <condition>:<expression>"
  | conditionFailed b k => s!"condition not satisfied for key '{k}' in bucket '{b}'"
  | keyNotFound b k => s!"key '{k}' not found in bucket '{b}'"
  | timeout f => s!"update function '{f}' timed out"
  | backup r => s!"backup failure: {r}"
  | malformed r => s!"malformed data: {r}"

/-- What goes wrong on the node that a command reached. -/
inductive ProcessingError where
  | store (error : StoreError)
  | shutdown
  | panicked (reason : String)
  | unexpectedResult (expected : String)
deriving DecidableEq, Repr

def ProcessingError.message : ProcessingError → String
  | store e => e.message
  | shutdown => "executor is shut down"
  | panicked r => s!"command task panicked: {r}"
  | unexpectedResult e => s!"unexpected result: expected {e}"

/-- Why no node was found. -/
inductive RouteError where
  | noCluster (bucket : String)
  | emptyCluster (cluster : String)
  | noLocalCluster
deriving DecidableEq, Repr

def RouteError.message : RouteError → String
  | noCluster b => s!"no cluster owns bucket '{b}'"
  | emptyCluster c => s!"cluster '{c}' has no nodes"
  | noLocalCluster => "this process does not belong to any configured local cluster"

/-- Why a node gave no usable reply. -/
inductive LinkError where
  | unreachable (node reason : String)
  | protocol (node reason : String)
deriving DecidableEq, Repr

def LinkError.message : LinkError → String
  | unreachable n r => s!"node {n} unreachable: {r}"
  | protocol n r => s!"protocol error talking to node {n}: {r}"

/-- What a coordinator reports. -/
inductive ClusterError where
  | missingRoute (error : RouteError)
  | communication (error : LinkError)
  | processing (error : ProcessingError)
deriving DecidableEq, Repr

def ClusterError.message : ClusterError → String
  | missingRoute e => s!"missing route: {e.message}"
  | communication e => s!"communication failure: {e.message}"
  | processing e => s!"processing failure: {e.message}"

/-- A store error as a coordinator reports it. -/
def ClusterError.ofStore (e : StoreError) : ClusterError := .processing (.store e)

end BucketCluster
