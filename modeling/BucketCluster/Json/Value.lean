import BucketCluster.Json.Structure
import BucketCluster.SortedMap

/-!
# JSON documents

The value that a JSON text denotes.  The members of an object are kept in the
order of their names, and of a repeated name the last value counts, so equal
documents are written alike.  A document is nested at most 127 deep.
-/

namespace BucketCluster

/-- A JSON document. -/
inductive Json where
  | null
  | bool (b : Bool)
  | number (n : Json.Number)
  | string (s : String)
  | array (items : List Json)
  | object (members : List (String × Json))

namespace Json

/-! ## Reading -/

/-- Reads a document nested at most `depth` deep. -/
def value (depth : Nat) : Reader Json := fun bs =>
  match skipBlanks bs with
  | [] => .error .truncated
  | b :: rest =>
    if b = 110 then (expectWord nullTail rest).map (.null, ·)
    else if b = 116 then (expectWord trueTail rest).map (.bool true, ·)
    else if b = 102 then (expectWord falseTail rest).map (.bool false, ·)
    else if b = 45 || Bytes.isDigit b then
      (readNumber (b :: rest)).map fun (n, rest) => (.number n, rest)
    else if b = 34 then (stringTail rest).map fun (s, rest) => (.string s, rest)
    else if b = 91 then
      match depth with
      | 0 => .error .malformed
      | depth + 1 => (listTail (value depth) rest).map fun (xs, rest) => (.array xs, rest)
    else if b = 123 then
      match depth with
      | 0 => .error .malformed
      | depth + 1 => do
        let (ms, rest) ← Json.members (fun ms bs => do
          let (name, bs) ← stringTail bs
          let bs ← colon bs
          let (x, bs) ← value depth bs
          .ok (Entries.insert name x ms, bs)) [] rest
        let rest ← closeObject rest
        .ok (.object ms, rest)
    else .error .malformed

/-- How deep documents may be nested. -/
def maxDepth : Nat := 127

/-- The document that a text denotes. -/
def parse (bs : Bytes) : Except Fault Json := (value maxDepth).whole bs

/-! ## Writing -/

mutual

/-- The text of a document, without blanks. -/
def write : Json → Bytes
  | .null => nullText
  | .bool true => 116 :: trueTail
  | .bool false => 102 :: falseTail
  | .number n => n.write
  | .string s => quote s
  | .array xs => writeList (writeItems xs)
  | .object ms => writeObject (writeMembers ms)

/-- The texts of the elements of a list. -/
def writeItems : List Json → List Bytes
  | [] => []
  | x :: xs => write x :: writeItems xs

/-- The names and texts of the members of an object. -/
def writeMembers : List (String × Json) → List (String × Bytes)
  | [] => []
  | (name, x) :: ms => (name, write x) :: writeMembers ms

end

/-! ## Looking into documents -/

/-- The member of an object with the given name. -/
def member? (name : String) (ms : List (String × Json)) : Option Json := Entries.get? name ms

end Json

end BucketCluster
