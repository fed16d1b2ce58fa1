import BucketCluster.Json.Value

/-!
# Documents

What is stored under a key: a byte string that the store does not look into,
unless an operator asks for the JSON document in it.
-/

namespace BucketCluster

/-- A stored document. -/
structure Document where
  bytes : Bytes
deriving DecidableEq, Repr, Inhabited

namespace Document

def ofText (s : String) : Document := ⟨Utf8.encode s⟩

/-- The JSON document that the bytes spell. -/
def toJson (d : Document) : Except Json.Fault Json := Json.parse d.bytes

/-- The bytes of a JSON document. -/
def ofJson (j : Json) : Document := ⟨j.write⟩

end Document

end BucketCluster
