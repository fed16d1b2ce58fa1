import BucketCluster.Json.Value
import BucketCluster.Schema.Basic

/-!
# Messages in JSON documents

The message that a document denotes, if it denotes one: the same shapes as in
JSON text, looked up in a document that has been read already.  A document has
no broken parts and no repeated members, so all that can be wrong is its shape.

The record that an alternative carries has to be an object here; all other
records may also be lists of their fields.
-/

namespace BucketCluster

/-! ## Simple values -/

namespace Json

/-- The integer below `bound` that a document is. -/
def natural? (bound : Nat) : Json → Option Nat
  | .number (.integer n) => if 0 ≤ n ∧ n < bound then some n.toNat else none
  | _ => none

/-- The byte that a document is. -/
def octet? (x : Json) : Option UInt8 := (x.natural? 256).map UInt8.ofNat

def string? : Json → Option String
  | .string s => some s
  | _ => none

def array? : Json → Option (List Json)
  | .array xs => some xs
  | _ => none

def object? : Json → Option (List (String × Json))
  | .object ms => some ms
  | _ => none

/-- The elements of a list of two. -/
def pair? : Json → Option (Json × Json)
  | .array [x, y] => some (x, y)
  | _ => none

/-- The bytes that a document lists. -/
def octets? (x : Json) : Option Bytes := x.array?.bind fun xs => xs.mapM octet?

end Json

/-- The key that a document is: a text, or a list of bytes. -/
def Key.ofJson? (x : Json) : Option Key :=
  match x with
  | .string s => some (.ofText s)
  | x => x.octets?.map Key.mk

/-! ## Messages -/

/-- What an object without the field has in its place. -/
def Default.inObject? {α : Type} : Default α → Option α
  | .none => .none
  | .inObject x => some x
  | .anywhere x => some x

/-- What a list that ends before the field has in its place. -/
def Default.inList? {α : Type} : Default α → Option α
  | .anywhere x => some x
  | _ => .none

/-- An alternative that carries something of this shape may have the document as
its content: a record has to be an object there. -/
def Schema.mayCarry {α : Type} : Schema α → Json → Bool
  | .record .., x => x.object?.isSome
  | _, _ => true

mutual

/-- The message that a document denotes. -/
def Schema.ofJson? : {α : Type} → Schema α → Json → Option α
  | _, .text, x => x.string?
  | _, .octets, x => x.octets?
  | _, .key, x => Key.ofJson? x
  | _, .word32, x => (x.natural? UInt32.size).map UInt32.ofNat
  | _, .word64, x => (x.natural? UInt64.size).map UInt64.ofNat
  | _, .option item, x =>
    match x with
    | .null => some none
    | x => (item.ofJson? x).map some
  | _, .list item, x => x.array?.bind fun xs => xs.mapM item.ofJson?
  | _, .pair first second, x => do
    let (x, y) ← x.pair?
    let a ← first.ofJson? x
    let b ← second.ofJson? y
    some (a, b)
  | _, @Schema.set _ _ _ item, x => do
    let xs ← x.array?
    (xs.mapM item.ofJson?).map SortedSet.ofElements
  | _, @Schema.map _ _ _ _ _ ofName _ value, x => do
    let ms ← x.object?
    (ms.mapM fun m => (value.ofJson? m.2).map (ofName m.1, ·)).map SortedMap.ofList
  | _, .refine inner make _, x => (inner.ofJson? x).bind make
  | _, .record fields make _, x =>
    match x with
    | .array xs => (fields.ofList? xs).map make
    | .object ms => (fields.ofMembers? ms).map make
    | _ => none
  | _, .choice cases, x =>
    match x with
    | .string name => cases.bare? name
    | .object [(name, x)] => cases.ofMember? name x
    | _ => none

/-- The fields of a record that a list holds, and nothing else. -/
def Fields.ofList? : {α σ : Type} → Fields α σ → List Json → Option α
  | _, _, .nil, xs => if xs.isEmpty then some () else none
  | _, _, .field _ shape default rest, xs => do
    let x ← match xs with
      | [] => default.inList?
      | x :: _ => shape.ofJson? x
    let more ← rest.ofList? xs.tail
    some (x, more)

/-- The fields of a record among the members of an object. -/
def Fields.ofMembers? : {α σ : Type} → Fields α σ → List (String × Json) → Option α
  | _, _, .nil, _ => some ()
  | _, _, .field name shape default rest, ms => do
    let x ← match Json.member? name ms with
      | none => default.inObject?
      | some x => shape.ofJson? x
    let more ← rest.ofMembers? ms
    some (x, more)

/-- The alternative with the given name that carries what the document denotes. -/
def Cases.ofMember? : {α : Type} → Cases α → String → Json → Option α
  | _, .nil, _, _ => none
  | _, .unit name value _ rest, sought, x =>
    if name = sought then
      match x with
      | .null => some value
      | _ => none
    else rest.ofMember? sought x
  | _, .case name shape make _ rest, sought, x =>
    if name = sought then
      if shape.mayCarry x then (shape.ofJson? x).map make else none
    else rest.ofMember? sought x

end

end BucketCluster
