import BucketCluster.Json.Value
import BucketCluster.Schema.Basic

/-!
# The JSON format

A record is an object of its fields, written in their order and read in any
order; unknown members are passed over and repeated ones refused.  It may also
be read from a list of its fields.  An alternative that carries nothing is its
name, any other an object with its name as the only member.  A key is a string
if it is text and a list of bytes otherwise; a byte string is a list of numbers.

Writing fails for a map with a key that is no text, since JSON has no other
member names.
-/

namespace BucketCluster

open Json (Reader)

namespace Json

/-! ## Reading simple values -/

/-- A string. -/
def readText : Reader String := fun bs =>
  match skipBlanks bs with
  | 34 :: rest => stringTail rest
  | bs => .error (mismatch bs)

/-- An integer below `bound`. -/
def readNatural (bound : Nat) : Reader Nat := fun bs =>
  match skipBlanks bs with
  | [] => .error .truncated
  | b :: rest =>
    if b = 45 || Bytes.isDigit b then do
      let (n, rest) ← readNumber (b :: rest)
      match n with
      | .integer n => if 0 ≤ n ∧ n < bound then .ok (n.toNat, rest) else .error .mismatched
      | .real _ => .error .mismatched
    else .error (mismatch (b :: rest))

/-- A list. -/
def readList {α : Type} (item : Reader α) : Reader (List α) := fun bs =>
  match skipBlanks bs with
  | 91 :: rest => listTail item rest
  | bs => .error (mismatch bs)

/-- A list of bytes. -/
def readOctets : Reader Bytes :=
  readList fun bs => (readNatural 256 bs).map fun (n, bs) => (UInt8.ofNat n, bs)

/-- A key: a string or a list of bytes. -/
def readKey : Reader Key := fun bs =>
  match skipBlanks bs with
  | 34 :: rest => (stringTail rest).map fun (s, rest) => (Key.ofText s, rest)
  | bs => (readOctets bs).map fun (raw, bs) => (⟨raw⟩, bs)

/-- The word `null`. -/
def readNull : Reader Unit := fun bs =>
  match skipBlanks bs with
  | 110 :: rest => (expectWord nullTail rest).map ((), ·)
  | bs => .error (mismatch bs)

/-- Either `null` or a value. -/
def readOption {α : Type} (item : Reader α) : Reader (Option α) := fun bs =>
  match skipBlanks bs with
  | 110 :: rest => (expectWord nullTail rest).map (none, ·)
  | bs => (item bs).map fun (x, bs) => (some x, bs)

/-- The next element of a list of fixed length. -/
def nextField {α : Type} (first : Bool) (item : Reader α) : Reader α := fun bs => do
  match ← nextElement first bs with
  | none => .error .mismatched
  | some bs => item bs

/-- A list of two. -/
def readPair {α β : Type} (item₁ : Reader α) (item₂ : Reader β) : Reader (α × β) := fun bs =>
  match skipBlanks bs with
  | 91 :: rest => do
    let (x, rest) ← nextField true item₁ rest
    let (y, rest) ← nextField false item₂ rest
    let rest ← closeList rest
    .ok ((x, y), rest)
  | bs => .error (mismatch bs)

/-- An object as the list of its members. -/
def readMembers {ν : Type} (value : Reader ν) : Reader (List (String × ν)) := fun bs =>
  match skipBlanks bs with
  | 123 :: rest => do
    let (ms, rest) ← members (fun ms bs => do
      let (name, bs) ← stringTail bs
      let bs ← colon bs
      let (x, bs) ← value bs
      .ok (ms ++ [(name, x)], bs)) [] rest
    let rest ← closeObject rest
    .ok (ms, rest)
  | bs => .error (mismatch bs)

/-- A member that no field has the name of. -/
def skipMember (bs : Bytes) : Except Fault Bytes := do
  let bs ← colon bs
  skipValue bs

/-! ## Writing simple values -/

/-- A list of numbers. -/
def writeOctets (bs : Bytes) : Bytes := writeList (bs.map fun b => Bytes.decimal b.toNat)

/-- A key: a string if it is text. -/
def writeKey (k : Key) : Bytes :=
  match k.text? with
  | some s => quote s
  | none => writeOctets k.bytes

end Json

/-! ## Writing -/

mutual

/-- The JSON text of a message. -/
def Schema.write : {α : Type} → Schema α → α → Option Bytes
  | _, .text, s => some (Json.quote s)
  | _, .octets, bs => some (Json.writeOctets bs)
  | _, .key, k => some (Json.writeKey k)
  | _, .word32, n => some (Bytes.decimal n.toNat)
  | _, .word64, n => some (Bytes.decimal n.toNat)
  | _, .option item, x =>
    match x with
    | none => some Json.nullText
    | some x => item.write x
  | _, .list item, xs => (xs.mapM item.write).map Json.writeList
  | _, .pair first second, x => do
    let a ← first.write x.1
    let b ← second.write x.2
    some (Json.writeList [a, b])
  | _, @Schema.set _ _ _ item, s => (s.keys.mapM item.write).map Json.writeList
  | _, @Schema.map _ _ _ _ name? _ _ value, m =>
    (m.entries.mapM fun (k, x) => do
      let name ← name? k
      let text ← value.write x
      some (name, text)).map Json.writeObject
  | _, .refine inner _ parts, x => inner.write (parts x)
  | _, .record fields _ parts, x => (fields.write (parts x)).map Json.writeObject
  | _, .choice cases, x => cases.write x

/-- The names and texts of the fields of a record. -/
def Fields.write : {α σ : Type} → Fields α σ → α → Option (List (String × Bytes))
  | _, _, .nil, _ => some []
  | _, _, .field name shape _ rest, x => do
    let text ← shape.write x.1
    let more ← rest.write x.2
    some ((name, text) :: more)

/-- The text of the first alternative that holds. -/
def Cases.write : {α : Type} → Cases α → α → Option Bytes
  | _, .nil, _ => none
  | _, .unit name _ is rest, x => if is x then some (Json.quote name) else rest.write x
  | _, .case name shape _ take rest, x =>
    match take x with
    | some y => (shape.write y).map fun text => Json.writeObject [(name, text)]
    | none => rest.write x

end

/-! ## Reading -/

/-- No field has been read. -/
def Fields.noSlots : {α σ : Type} → Fields α σ → σ
  | _, _, .nil => ()
  | _, _, .field _ _ _ rest => (none, rest.noSlots)

/-- The record that the slots hold, if each field was read or may be missing. -/
def Fields.collect : {α σ : Type} → Fields α σ → σ → Option α
  | _, _, .nil, _ => some ()
  | _, _, .field _ _ default rest, slots => do
    let x ← match slots.1, default with
      | some x, _ => some x
      | none, .none => none
      | none, .inObject x => some x
      | none, .anywhere x => some x
    let xs ← rest.collect slots.2
    some (x, xs)

mutual

/-- Reads a message off the front of a JSON text. -/
def Schema.read : {α : Type} → Schema α → Reader α
  | _, .text, bs => Json.readText bs
  | _, .octets, bs => Json.readOctets bs
  | _, .key, bs => Json.readKey bs
  | _, .word32, bs => (Json.readNatural UInt32.size bs).map fun (n, bs) => (UInt32.ofNat n, bs)
  | _, .word64, bs => (Json.readNatural UInt64.size bs).map fun (n, bs) => (UInt64.ofNat n, bs)
  | _, .option item, bs => Json.readOption item.read bs
  | _, .list item, bs => Json.readList item.read bs
  | _, .pair first second, bs => Json.readPair first.read second.read bs
  | _, @Schema.set _ _ _ item, bs => (Json.readList item.read bs).map fun (xs, bs) =>
    (SortedSet.ofElements xs, bs)
  | _, @Schema.map _ _ _ _ _ ofName _ value, bs =>
    (Json.readMembers value.read bs).map fun (ms, bs) =>
      (SortedMap.ofList (ms.map fun m => (ofName m.1, m.2)), bs)
  | _, .refine inner make _, bs => do
    let (y, bs) ← inner.read bs
    match make y with
    | some x => .ok (x, bs)
    | none => .error .mismatched
  | _, .record fields make _, bs =>
    match Json.skipBlanks bs with
    | 91 :: rest => do
      let (y, rest) ← fields.readRow true rest
      let rest ← Json.closeList rest
      .ok (make y, rest)
    | 123 :: rest => do
      let (slots, rest) ← Json.members (fun slots bs => do
        let (name, bs) ← Json.stringTail bs
        match fields.readMember name slots bs with
        | some read => read
        | none => (Json.skipMember bs).map (slots, ·)) fields.noSlots rest
      match fields.collect slots with
      | none => .error .mismatched
      | some y => do
        let rest ← Json.closeObject rest
        .ok (make y, rest)
    | bs => .error (Json.mismatch bs)
  | _, .choice cases, bs =>
    match Json.skipBlanks bs with
    | [] => .error .truncated
    | 34 :: rest => do
      let (name, rest) ← Json.stringTail rest
      match cases.bare? name with
      | some x => .ok (x, rest)
      | none => .error .mismatched
    | 123 :: rest => do
      let rest ← Json.nameStart rest
      let (name, rest) ← Json.stringTail rest
      match cases.readCase name rest with
      | none => .error .mismatched
      | some read => do
        let (x, rest) ← read
        match Json.skipBlanks rest with
        | [] => .error .truncated
        | b :: rest => if b = 125 then .ok (x, rest) else .error .malformed
    | _ => .error .malformed

/-- Reads the fields of a record from a list; `first` before the first one. -/
def Fields.readRow : {α σ : Type} → Fields α σ → Bool → Reader α
  | _, _, .nil, _, bs => .ok ((), bs)
  | _, _, .field _ shape default rest, first, bs => do
    match ← Json.nextElement first bs with
    | none =>
      match default with
      | .anywhere x => (rest.readRow first bs).map fun (xs, bs) => ((x, xs), bs)
      | _ => .error .mismatched
    | some bs => do
      let (x, bs) ← shape.read bs
      (rest.readRow false bs).map fun (xs, bs) => ((x, xs), bs)

/-- Reads the member with the given name, whose name has been read, into its
slot; `none` if no field has that name. -/
def Fields.readMember : {α σ : Type} → Fields α σ → String → σ → Bytes →
    Option (Except Json.Fault (σ × Bytes))
  | _, _, .nil, _, _, _ => none
  | _, _, .field name shape _ rest, sought, slots, bs =>
    if name = sought then
      some (match slots.1 with
        | some _ => .error .mismatched
        | none => do
          let bs ← Json.colon bs
          let (x, bs) ← shape.read bs
          .ok ((some x, slots.2), bs))
    else
      (rest.readMember sought slots.2 bs).map fun read =>
        read.map fun (slots', bs) => ((slots.1, slots'), bs)

/-- Reads colon and content of the alternative with the given name; `none` if
there is no such alternative. -/
def Cases.readCase : {α : Type} → Cases α → String → Bytes → Option (Except Json.Fault (α × Bytes))
  | _, .nil, _, _ => none
  | _, .unit name value _ rest, sought, bs =>
    if name = sought then
      some do
        let bs ← Json.colon bs
        let (_, bs) ← Json.readNull bs
        .ok (value, bs)
    else rest.readCase sought bs
  | _, .case name shape make _ rest, sought, bs =>
    if name = sought then
      some do
        let bs ← Json.colon bs
        let (y, bs) ← shape.read bs
        .ok (make y, bs)
    else rest.readCase sought bs

end

/-- The message that a JSON text denotes. -/
def Schema.parse {α : Type} (schema : Schema α) (bs : Bytes) : Except Json.Fault α :=
  Reader.whole schema.read bs

end BucketCluster
