import BucketCluster.Key

/-!
# Message schemas

A schema describes the shape of a type of messages once; both formats follow
from it, the binary one between nodes and the JSON one for clients, and so does
the reading of messages from JSON documents.

Records list their fields in order, with what a field stands for when it is
missing.  Choices list their alternatives in order; each has a name, the shape
of what it carries, and the two directions between the carried value and the
message.
-/

namespace BucketCluster

/-- What the JSON form of a record takes for a field that is missing. -/
inductive Default (α : Type) where
  /-- The field has to be there. -/
  | none
  /-- A record written as an object may leave the field out. -/
  | inObject (x : α)
  /-- So may a record written as a list of its fields. -/
  | anywhere (x : α)

mutual

/-- The shape of the messages of a type. -/
inductive Schema : Type → Type 1 where
  | text : Schema String
  | octets : Schema Bytes
  | key : Schema Key
  | word32 : Schema UInt32
  | word64 : Schema UInt64
  | option {α : Type} (item : Schema α) : Schema (Option α)
  | list {α : Type} (item : Schema α) : Schema (List α)
  | pair {α β : Type} (first : Schema α) (second : Schema β) : Schema (α × β)
  | set {α : Type} [Ord α] [Std.TransOrd α] (item : Schema α) : Schema (SortedSet α)
  /-- A map; JSON spells its keys as member names. -/
  | map {κ ν : Type} [Ord κ] [Std.TransOrd κ] (name? : κ → Option String) (ofName : String → κ)
      (key : Schema κ) (value : Schema ν) : Schema (SortedMap κ ν)
  /-- A type whose values are those of `inner` that `make` accepts. -/
  | refine {α β : Type} (inner : Schema β) (make : β → Option α) (parts : α → β) : Schema α
  | record {α β σ : Type} (fields : Fields β σ) (make : β → α) (parts : α → β) : Schema α
  | choice {α : Type} (cases : Cases α) : Schema α

/-- The fields of a record: the second type has a slot for each of them. -/
inductive Fields : Type → Type → Type 1 where
  | nil : Fields Unit Unit
  | field {α β σ : Type} (name : String) (shape : Schema α) (default : Default α)
      (rest : Fields β σ) : Fields (α × β) (Option α × σ)

/-- The alternatives of a choice. -/
inductive Cases : Type → Type 1 where
  | nil {α : Type} : Cases α
  /-- An alternative that carries nothing. -/
  | unit {α : Type} (name : String) (value : α) (is : α → Bool) (rest : Cases α) : Cases α
  /-- An alternative that carries a value. -/
  | case {α β : Type} (name : String) (shape : Schema β) (make : β → α) (take : α → Option β)
      (rest : Cases α) : Cases α

end

/-- The name of the alternative that a message is. -/
def Cases.nameOf {α : Type} (x : α) : Cases α → String
  | .nil => ""
  | .unit name _ is rest => if is x then name else rest.nameOf x
  | .case name _ _ take rest => if (take x).isSome then name else rest.nameOf x

/-- The alternative that carries nothing and has the given name. -/
def Cases.bare? {α : Type} : Cases α → String → Option α
  | .nil, _ => none
  | .unit name value _ rest, sought => if name = sought then some value else rest.bare? sought
  | .case _ _ _ _ rest, sought => rest.bare? sought

namespace Schema

/-- The name of the alternative that a message is; empty for types without alternatives. -/
def nameOf {α : Type} (x : α) : Schema α → String
  | .choice cases => cases.nameOf x
  | _ => ""

/-- A map from texts. -/
def textMap {ν : Type} (value : Schema ν) : Schema (SortedMap String ν) :=
  .map some id .text value

/-- A map from keys; JSON can spell it only if every key is a text. -/
def keyMap {ν : Type} (value : Schema ν) : Schema (SortedMap Key ν) :=
  .map Key.text? Key.ofText .key value

end Schema

end BucketCluster
