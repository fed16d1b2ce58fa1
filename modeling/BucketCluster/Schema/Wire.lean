import BucketCluster.Schema.Basic

/-!
# The binary format

Numbers are little-endian, four bytes for the alternative of a choice and for
32-bit words, eight for lengths and 64-bit words.  Texts, byte strings and
collections are a length and their content, an optional value is one byte, 0 or
1, and the value if there is one.  Nothing is put between the parts, and nothing
marks the end: `decode` reads a message off the front and gives what follows.
-/

namespace BucketCluster

namespace Wire

/-- Why a message was refused. -/
inductive Fault where
  /-- The bytes ended before the message did. -/
  | truncated
  /-- A text is not UTF-8. -/
  | invalidText
  /-- An optional value begins with a byte that is neither 0 nor 1. -/
  | invalidTag
  /-- There is no such alternative or value. -/
  | refused
deriving DecidableEq, Repr

/-- The wording of a refusal. -/
def Fault.message : Fault → String
  | .truncated => "message ends too early"
  | .invalidText => "text is not UTF-8"
  | .invalidTag => "optional value has a bad mark"
  | .refused => "message names no known alternative"

/-- Reads a value off the front of a message and gives what follows it. -/
abbrev Decoder (α : Type) := Bytes → Except Fault (α × Bytes)

/-- The first `n` bytes. -/
def splitAt (n : Nat) : Decoder Bytes := fun bs =>
  if bs.length < n then .error .truncated else .ok (bs.take n, bs.drop n)

/-- A number of `width` bytes. -/
def word (width : Nat) : Decoder Nat := fun bs =>
  (splitAt width bs).map fun (w, rest) => (Bytes.ofLittleEndian w, rest)

def encodeLength (n : Nat) : Bytes := Bytes.littleEndian 8 n

/-- A length and as many bytes. -/
def sized : Decoder Bytes := fun bs => do
  let (n, bs) ← word 8 bs
  splitAt n bs

/-- As many values as told. -/
def times {α : Type} (item : Decoder α) : Nat → Decoder (List α)
  | 0, bs => .ok ([], bs)
  | n + 1, bs => do
    let (x, bs) ← item bs
    let (xs, bs) ← times item n bs
    .ok (x :: xs, bs)

/-- A length and as many values. -/
def many {α : Type} (item : Decoder α) : Decoder (List α) := fun bs => do
  let (n, bs) ← word 8 bs
  times item n bs

end Wire

/-! ## Writing -/

mutual

/-- The bytes of a message. -/
def Schema.encode : {α : Type} → Schema α → α → Bytes
  | _, .text, s => Wire.encodeLength (Utf8.encode s).length ++ Utf8.encode s
  | _, .octets, bs => Wire.encodeLength bs.length ++ bs
  | _, .key, k => Wire.encodeLength k.bytes.length ++ k.bytes
  | _, .word32, n => Bytes.littleEndian 4 n.toNat
  | _, .word64, n => Bytes.littleEndian 8 n.toNat
  | _, .option item, x =>
    match x with
    | none => [0]
    | some x => 1 :: item.encode x
  | _, .list item, xs => Wire.encodeLength xs.length ++ xs.flatMap item.encode
  | _, .pair first second, x => first.encode x.1 ++ second.encode x.2
  | _, @Schema.set _ _ _ item, s => Wire.encodeLength s.keys.length ++ s.keys.flatMap item.encode
  | _, @Schema.map _ _ _ _ _ _ keys values, m =>
    Wire.encodeLength m.entries.length ++ m.entries.flatMap fun e =>
      keys.encode e.1 ++ values.encode e.2
  | _, .refine inner _ parts, x => inner.encode (parts x)
  | _, .record fields _ parts, x => fields.encode (parts x)
  | _, .choice cases, x => cases.encode 0 x

/-- The bytes of the fields of a record. -/
def Fields.encode : {α σ : Type} → Fields α σ → α → Bytes
  | _, _, .nil, _ => []
  | _, _, .field _ shape _ rest, x => shape.encode x.1 ++ rest.encode x.2

/-- The number of the first alternative that holds, counted from `n`, and the
bytes of what it carries. -/
def Cases.encode : {α : Type} → Cases α → Nat → α → Bytes
  | _, .nil, _, _ => []
  | _, .unit _ _ is rest, n, x => if is x then Bytes.littleEndian 4 n else rest.encode (n + 1) x
  | _, .case _ shape _ take rest, n, x =>
    match take x with
    | some y => Bytes.littleEndian 4 n ++ shape.encode y
    | none => rest.encode (n + 1) x

end

/-! ## Reading -/

mutual

/-- Reads a message off the front of the bytes. -/
def Schema.decode : {α : Type} → Schema α → Wire.Decoder α
  | _, .text, bs => do
    let (raw, bs) ← Wire.sized bs
    match Utf8.decode? raw with
    | some s => .ok (s, bs)
    | none => .error .invalidText
  | _, .octets, bs => Wire.sized bs
  | _, .key, bs => (Wire.sized bs).map fun (raw, bs) => (⟨raw⟩, bs)
  | _, .word32, bs => (Wire.word 4 bs).map fun (n, bs) => (UInt32.ofNat n, bs)
  | _, .word64, bs => (Wire.word 8 bs).map fun (n, bs) => (UInt64.ofNat n, bs)
  | _, .option item, bs =>
    match bs with
    | [] => .error .truncated
    | tag :: bs =>
      if tag = 0 then .ok (none, bs)
      else if tag = 1 then (item.decode bs).map fun (x, bs) => (some x, bs)
      else .error .invalidTag
  | _, .list item, bs => Wire.many item.decode bs
  | _, .pair first second, bs => do
    let (x, bs) ← first.decode bs
    let (y, bs) ← second.decode bs
    .ok ((x, y), bs)
  | _, @Schema.set _ _ _ item, bs => (Wire.many item.decode bs).map fun (xs, bs) =>
    (SortedSet.ofElements xs, bs)
  | _, @Schema.map _ _ _ _ _ _ keys values, bs =>
    (Wire.many (fun bs => do
      let (k, bs) ← keys.decode bs
      let (x, bs) ← values.decode bs
      .ok ((k, x), bs)) bs).map fun (es, bs) => (SortedMap.ofList es, bs)
  | _, .refine inner make _, bs => do
    let (y, bs) ← inner.decode bs
    match make y with
    | some x => .ok (x, bs)
    | none => .error .refused
  | _, .record fields make _, bs => (fields.decode bs).map fun (y, bs) => (make y, bs)
  | _, .choice cases, bs => do
    let (n, bs) ← Wire.word 4 bs
    cases.decode n bs

/-- Reads the fields of a record. -/
def Fields.decode : {α σ : Type} → Fields α σ → Wire.Decoder α
  | _, _, .nil, bs => .ok ((), bs)
  | _, _, .field _ shape _ rest, bs => do
    let (x, bs) ← shape.decode bs
    let (xs, bs) ← rest.decode bs
    .ok ((x, xs), bs)

/-- Reads what the alternative with the given number carries. -/
def Cases.decode : {α : Type} → Cases α → Nat → Wire.Decoder α
  | _, .nil, _, _ => .error .refused
  | _, .unit _ value _ rest, n, bs =>
    match n with
    | 0 => .ok (value, bs)
    | n + 1 => rest.decode n bs
  | _, .case _ shape make _ rest, n, bs =>
    match n with
    | 0 => (shape.decode bs).map fun (y, bs) => (make y, bs)
    | n + 1 => rest.decode n bs

end

/-- The message that the bytes begin with. -/
def Schema.decodeFront {α : Type} (schema : Schema α) (bs : Bytes) : Except Wire.Fault α :=
  (schema.decode bs).map (·.1)

end BucketCluster
