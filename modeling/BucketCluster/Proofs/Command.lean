import BucketCluster.Proofs.Json.Value
import BucketCluster.Proofs.Message

/-!
# Commands and keys in JSON

Every command has a JSON text, and the text is read as that very command
(`commands_lossless`).  What a key is written as depends on its bytes: a string if
they are text and a list of numbers otherwise.  Either way the key is read back,
from the text or from the document that the text denotes (`Key.toJson`), so no two
keys are written alike.
-/

namespace BucketCluster

/-! ## Keys as documents -/

namespace Key

/-- The document that a key is written as. -/
def toJson (k : Key) : Json :=
  match k.text? with
  | some s => .string s
  | none => .array (k.bytes.map fun b => .number (.integer b.toNat))

theorem write_toJson (k : Key) : k.toJson.write = Json.writeKey k := by
  unfold toJson Json.writeKey
  cases k.text? with
  | some s => rfl
  | none =>
    have hitem (b : UInt8) : (Json.number (.integer b.toNat)).write = Bytes.decimal b.toNat := by
      rw [Json.write, Json.Number.write, Bytes.decimalInt, if_neg (by omega), Int.natAbs_natCast]
    rw [Json.write, Json.writeItems_eq, List.map_map, Json.writeOctets]
    exact congrArg Json.writeList (List.map_congr_left fun b _ => hitem b)

theorem octets?_bytes (bs : Bytes) :
    (Json.array (bs.map fun b => .number (.integer b.toNat))).octets? = some bs := by
  show (bs.map fun b => Json.number (.integer b.toNat)).mapM Json.octet? = some bs
  induction bs with
  | nil => rfl
  | cons b bs ih =>
    have hb : (Json.number (.integer b.toNat)).octet? = some b := by
      have hlt := b.toNat_lt
      rw [Json.octet?, Json.natural?, if_pos (by omega), Int.toNat_natCast, Option.map_some,
        UInt8.ofNat_toNat]
    rw [List.map_cons, List.mapM_cons, hb, ih]
    rfl

theorem ofJson?_toJson (k : Key) : ofJson? k.toJson = some k := by
  unfold toJson
  cases hk : k.text? with
  | some s =>
    show some (ofText s) = some k
    rw [ofText, Utf8.encode_of_decode? hk]
  | none =>
    show (Json.octets? _).map Key.mk = some k
    rw [octets?_bytes]
    rfl

theorem stored_toJson (k : Key) : Json.Stored Json.maxDepth k.toJson := by
  unfold toJson
  cases k.text? with
  | some s => exact .string _ s
  | none =>
    refine .array fun x hx => ?_
    obtain ⟨b, -, rfl⟩ := List.mem_map.1 hx
    exact .number _ _

theorem whole_toJson (k : Key) : Json.Whole k.toJson := by
  unfold toJson
  cases k.text? with
  | some s => exact .string s
  | none =>
    refine .array fun x hx => ?_
    obtain ⟨b, -, rfl⟩ := List.mem_map.1 hx
    have hlt := b.toNat_lt
    exact .number ⟨by omega, by omega⟩

/-- The text of a key denotes the document that it is written as. -/
theorem parse_writeKey (k : Key) : Json.parse (Json.writeKey k) = .ok k.toJson := by
  rw [← write_toJson, Json.parse_write k.stored_toJson k.whole_toJson]

end Key

/-! ## Every command has a JSON form -/

theorem Predicate.writable (p : Predicate) : Predicate.schema.Writable p := by
  rw [Predicate.schema, Schema.Writable]
  exact ⟨trivial, trivial, trivial⟩

theorem KeyRange.writable (r : KeyRange) : KeyRange.schema.Writable r := by
  rw [KeyRange.schema, Schema.Writable]
  obtain ⟨start, stop, limit, comparator⟩ := r
  cases stop <;> cases comparator <;> exact ⟨trivial, trivial, trivial, trivial, trivial⟩

theorem Update.writable (u : Update) : Update.schema.Writable u := by
  rw [Update.schema, Schema.Writable]
  exact ⟨trivial, trivial, fun e _ => ⟨rfl, trivial⟩, trivial⟩

theorem Operation.predicateField_writable (p : Option Predicate) :
    predicateField.Writable (p, ()) := by
  cases p with
  | none => exact ⟨trivial, trivial⟩
  | some p => exact ⟨p.writable, trivial⟩

theorem Operation.writable (op : Operation) : Operation.schema.Writable op := by
  rw [Operation.schema, Schema.Writable]
  cases op <;> simp [Cases.Writable, plain, bucketField, keyField, Schema.Writable, Fields.Writable,
    predicateField_writable, Document.writable, Predicate.writable, KeyRange.writable,
      Update.writable]

theorem Command.writable (c : Command) : Command.schema.Writable c := by
  rw [Command.schema, Schema.Writable]
  exact ⟨trivial, c.operation.writable, trivial⟩

/-! ## Round trips -/

/-- **Commands and keys are lossless in JSON.**  Every command is written, and read back as
it was.  So is every key, from its text and from the document that the text denotes; two
keys have different texts. -/
theorem commands_lossless :
    (∀ c : Command, ∃ text, Command.schema.write c = some text ∧
      Command.schema.parse text = .ok c) ∧
    (∀ k : Key, ∃ text, Schema.key.write k = some text ∧ Schema.key.parse text = .ok k ∧
      ∃ j, Json.parse text = .ok j ∧ Schema.key.ofJson? j = some k) ∧
    ∀ k k' : Key, Schema.key.write k = Schema.key.write k' → k = k' := by
  have hkey (k : Key) : Schema.key.parse (Json.writeKey k) = .ok k :=
    have hlawful : Schema.key.Lawful := trivial
    Schema.parse_write hlawful trivial rfl
  refine ⟨fun c => ?_, fun k => ?_, fun k k' h => ?_⟩
  · obtain ⟨text, hw⟩ :=
      Option.isSome_iff_exists.1 ((Command.schema.write_isSome_iff c).2 c.writable)
    exact ⟨text, hw, Schema.parse_write Command.schema_lawful Command.schema_spelled hw⟩
  · exact ⟨Json.writeKey k, rfl, hkey k, k.toJson, k.parse_writeKey, k.ofJson?_toJson⟩
  · have htext : Json.writeKey k = Json.writeKey k' := Option.some.inj h
    have hread := hkey k
    rw [htext, hkey k'] at hread
    exact (Except.ok.inj hread).symm

/-- A key that is text, and one that is not. -/
example : Schema.key.write ⟨[97]⟩ = some [34, 97, 34] ∧
  Schema.key.write ⟨[255, 0]⟩ = some [91, 50, 53, 53, 44, 48, 93] := by
  decide +kernel

end BucketCluster
