import BucketCluster.Message
import BucketCluster.Proofs.Schema.Text
import BucketCluster.Proofs.Schema.Writing

/-!
# Messages are read back

The schemas of commands and replies are lawful (`Command.schema_lawful`,
`Reply.schema_lawful`), so a node reads what another one wrote.  Those of commands and
answers are spelled unambiguously as well (`Command.schema_spelled`,
`Answer.schema_spelled`), so a coordinator and its client read what the other one wrote.
What is sent of a command or reply is no longer than the whole.
-/

namespace BucketCluster

/-! ## Parts -/

theorem Schema.key_ne_nil (k : Key) : Schema.key.encode k ≠ [] := by
  intro h
  have hlen := congrArg List.length h
  rw [Schema.encode, List.length_append, Wire.length_encodeLength, List.length_nil] at hlen
  omega

theorem Schema.text_ne_nil (s : String) : Schema.text.encode s ≠ [] := by
  intro h
  have hlen := congrArg List.length h
  rw [Schema.encode, List.length_append, Wire.length_encodeLength, List.length_nil] at hlen
  omega

theorem Schema.keys_lawful : (Schema.set .key).Lawful := by
  rw [Schema.Lawful]
  exact ⟨trivial, key_ne_nil, inferInstance⟩

theorem Document.schema_lawful : Document.schema.Lawful := by
  rw [Document.schema, Schema.Lawful]
  exact ⟨trivial, fun _ => rfl⟩

theorem Predicate.schema_lawful : Predicate.schema.Lawful := by
  rw [Predicate.schema, Schema.Lawful]
  exact ⟨⟨trivial, trivial, trivial⟩, fun _ => rfl⟩

theorem KeyRange.schema_lawful : KeyRange.schema.Lawful := by
  rw [KeyRange.schema, Schema.Lawful]
  exact ⟨⟨trivial, trivial, trivial, trivial, trivial⟩, fun _ => rfl⟩

theorem Update.schema_lawful : Update.schema.Lawful := by
  rw [Update.schema, Schema.Lawful]
  exact ⟨⟨trivial, trivial, ⟨trivial, trivial, Schema.text_ne_nil, inferInstance⟩, trivial⟩,
    fun _ => rfl⟩

/-! ## Commands -/

theorem Operation.predicateField_lawful : predicateField.Lawful :=
  ⟨Predicate.schema_lawful, trivial⟩

theorem Operation.plain_lawful {α σ : Type} {fields : Fields α σ} (h : fields.Lawful) :
    (plain fields).Lawful := by
  rw [plain, Schema.Lawful]
  exact ⟨h, fun _ => rfl⟩

theorem Operation.schema_lawful : Operation.schema.Lawful := by
  rw [Operation.schema, Schema.Lawful]
  refine ⟨⟨?_, ⟨plain_lawful ⟨trivial, trivial, predicateField_lawful⟩, ?_,
    ⟨plain_lawful ⟨trivial, Schema.keys_lawful, predicateField_lawful⟩, ?_,
    ⟨plain_lawful ⟨trivial, trivial⟩, ?_,
    ⟨plain_lawful ⟨trivial, trivial, Document.schema_lawful, predicateField_lawful⟩, ?_,
    ⟨plain_lawful ⟨trivial, trivial, trivial⟩, ?_,
    ⟨plain_lawful ⟨trivial, trivial, Update.schema_lawful, trivial⟩, ?_,
    ⟨plain_lawful ⟨trivial, KeyRange.schema_lawful, predicateField_lawful⟩, ?_,
    ⟨plain_lawful ⟨trivial, Predicate.schema_lawful, trivial⟩, ?_,
    ⟨plain_lawful ⟨trivial, trivial⟩, ?_,
    ⟨plain_lawful ⟨trivial, trivial, trivial⟩, ?_,
    ⟨plain_lawful ⟨trivial, trivial, trivial⟩, ?_, trivial⟩⟩⟩⟩⟩⟩⟩⟩⟩⟩⟩⟩, fun x => ?_, by decide⟩
  case refine_13 => cases x <;> simp [Cases.Covers]
  all_goals
    intro x
    cases x <;> intros <;> first | rfl | (rename_i h; cases h; rfl) | (rename_i h; cases h)

theorem Command.schema_lawful : Command.schema.Lawful := by
  rw [Command.schema, Schema.Lawful]
  exact ⟨⟨trivial, Operation.schema_lawful, trivial⟩, fun _ => rfl⟩

/-! ## Replies -/

theorem Answer.schema_lawful : Answer.schema.Lawful := by
  rw [Answer.schema, Schema.Lawful]
  refine ⟨⟨?_, ⟨Document.schema_lawful, ?_,
    ⟨⟨trivial, Document.schema_lawful, Schema.key_ne_nil, inferInstance⟩, ?_,
    ⟨⟨⟨trivial, Document.schema_lawful⟩,
      fun e h => Schema.key_ne_nil e.1 (List.append_eq_nil_iff.1 h).1⟩, ?_,
    ⟨Schema.keys_lawful, ?_,
    ⟨⟨trivial, Schema.text_ne_nil, inferInstance⟩, ?_,
    ⟨trivial, ?_, trivial⟩⟩⟩⟩⟩⟩⟩, fun x => ?_, by decide⟩
  case refine_8 => cases x <;> simp [Cases.Covers]
  all_goals
    intro x
    cases x <;> intros <;> first | rfl | (rename_i h; cases h; rfl) | (rename_i h; cases h)

theorem StoreError.one_lawful (name : String) : (one name).Lawful :=
  Operation.plain_lawful ⟨trivial, trivial⟩

theorem StoreError.bucketAndKey_lawful : bucketAndKey.Lawful :=
    Operation.plain_lawful ⟨trivial, trivial, trivial⟩

theorem StoreError.schema_lawful : StoreError.schema.Lawful := by
  rw [StoreError.schema, Schema.Lawful]
  refine ⟨⟨one_lawful _, ?_,
    ⟨one_lawful _, ?_, ⟨one_lawful _, ?_, ⟨one_lawful _, ?_, ⟨bucketAndKey_lawful, ?_,
    ⟨bucketAndKey_lawful, ?_,
      ⟨one_lawful _, ?_, ⟨one_lawful _, ?_, ⟨one_lawful _, ?_, trivial⟩⟩⟩⟩⟩⟩⟩⟩⟩,
    fun x => ?_, by decide⟩
  case refine_10 => cases x <;> simp [Cases.Covers]
  all_goals
    intro x
    cases x <;> intros <;> first | rfl | (rename_i h; cases h; rfl) | (rename_i h; cases h)

theorem ProcessingError.schema_lawful : ProcessingError.schema.Lawful := by
  rw [ProcessingError.schema, Schema.Lawful]
  refine ⟨⟨StoreError.schema_lawful, ?_,
      ⟨?_, ⟨trivial, ?_, ⟨StoreError.one_lawful _, ?_, trivial⟩⟩⟩⟩,
    fun x => ?_, by decide⟩
  case refine_5 => cases x <;> simp [Cases.Covers]
  all_goals
    intro x
    cases x <;> intros <;> first | rfl | (rename_i h; cases h; rfl) | (rename_i h; cases h)

theorem Reply.schema_lawful : Reply.schema.Lawful := by
  rw [Reply.schema, Schema.Lawful]
  refine ⟨⟨Answer.schema_lawful, ?_, ⟨ProcessingError.schema_lawful, ?_, trivial⟩⟩,
    fun x => ?_, by decide⟩
  case refine_3 => cases x <;> simp [Cases.Covers]
  all_goals
    intro x
    cases x <;> intros <;> first | rfl | (rename_i h; cases h; rfl) | (rename_i h; cases h)

/-! ## In JSON -/

theorem Document.schema_spelled : Document.schema.Spelled := by
  rw [Document.schema, Schema.Spelled]
  trivial

theorem Document.writable (d : Document) : Document.schema.Writable d := by
  rw [Document.schema, Schema.Writable]
  trivial

/-- A document is written as a list. -/
theorem Document.head?_write {d : Document} {text : Bytes}
    (h : Document.schema.write d = some text) : text.head? = some 91 := by
  cases h
  rfl

theorem Schema.keyMap_spelled {ν : Type} {value : Schema ν} (h : value.Spelled) :
    (keyMap value).Spelled := by
  rw [keyMap, Schema.Spelled]
  refine ⟨h, fun k name hname => ?_⟩
  rw [Key.ofText, Utf8.encode_of_decode? hname]

theorem Answer.schema_spelled : Answer.schema.Spelled := by
  have hvalue : (Schema.option Document.schema).Spelled := by
    rw [Schema.Spelled]
    refine ⟨Document.schema_spelled, fun d text hw => ?_⟩
    rw [Document.head?_write hw]
    decide
  have hentries : (Schema.list (.pair .key Document.schema)).Spelled := by
    rw [Schema.Spelled, Schema.Spelled]
    exact ⟨trivial, Document.schema_spelled⟩
  rw [Answer.schema, Schema.Spelled]
  exact ⟨⟨hvalue, Schema.keyMap_spelled Document.schema_spelled, hentries, trivial, trivial,
      trivial, trivial⟩,
    by decide⟩

/-- A record is written as an object. -/
theorem Schema.head?_write_record {α β σ : Type} {fields : Fields β σ} {make : β → α}
    {parts : α → β} {x : α} {text : Bytes}
    (h : (Schema.record fields make parts).write x = some text) : text.head? = some 123 := by
  rw [Schema.write, Option.map_eq_some_iff] at h
  obtain ⟨ms, -, rfl⟩ := h
  rfl

/-- A key is written as a string or a list. -/
theorem Json.head?_writeKey (k : Key) :
    (writeKey k).head? = some 34 ∨ (writeKey k).head? = some 91 := by
  unfold writeKey
  cases k.text? with
  | some s => exact .inl rfl
  | none => exact .inr rfl

theorem Schema.optionKey_spelled : (Schema.option .key).Spelled := by
  rw [Schema.Spelled]
  refine ⟨trivial, fun k text hw => ?_⟩
  cases hw
  rcases Json.head?_writeKey k with h | h <;> rw [h] <;> decide

theorem Schema.optionText_spelled : (Schema.option .text).Spelled := by
  rw [Schema.Spelled]
  refine ⟨trivial, fun s text hw => ?_⟩
  cases hw
  show some (34 : UInt8) ≠ some 110
  decide

theorem Predicate.schema_spelled : Predicate.schema.Spelled := by
  rw [Predicate.schema, Schema.Spelled]
  exact ⟨⟨trivial, trivial, trivial⟩, by decide⟩

theorem KeyRange.schema_spelled : KeyRange.schema.Spelled := by
  rw [KeyRange.schema, Schema.Spelled]
  exact ⟨⟨trivial, Schema.optionKey_spelled, trivial, Schema.optionText_spelled,
    trivial⟩, by decide⟩

theorem Update.schema_spelled : Update.schema.Spelled := by
  rw [Update.schema, Schema.Spelled]
  refine ⟨⟨trivial, trivial, ⟨trivial, fun name name' h => ?_⟩, trivial⟩, by decide⟩
  exact (Option.some.inj h).symm

theorem Operation.predicateField_spelled : predicateField.Spelled := by
  have hoption : (Schema.option Predicate.schema).Spelled := by
    rw [Schema.Spelled]
    refine ⟨Predicate.schema_spelled, fun p text hw => ?_⟩
    rw [Schema.head?_write_record hw]
    decide
  exact ⟨hoption, trivial⟩

theorem Operation.plain_spelled {α σ : Type} {fields : Fields α σ} (h : fields.Spelled)
    (hnames : fields.names.Nodup) : (plain fields).Spelled := by
  rw [plain, Schema.Spelled]
  exact ⟨h, hnames⟩

theorem Operation.schema_spelled : Operation.schema.Spelled := by
  rw [Operation.schema, Schema.Spelled]
  exact ⟨⟨plain_spelled ⟨trivial, trivial, predicateField_spelled⟩ (by decide),
    plain_spelled ⟨trivial, trivial, predicateField_spelled⟩ (by decide),
    plain_spelled ⟨trivial, trivial⟩ (by decide),
    plain_spelled ⟨trivial, trivial, Document.schema_spelled, predicateField_spelled⟩ (by decide),
    plain_spelled ⟨trivial, trivial, trivial⟩ (by decide),
    plain_spelled ⟨trivial, trivial, Update.schema_spelled, trivial⟩ (by decide),
    plain_spelled ⟨trivial, KeyRange.schema_spelled, predicateField_spelled⟩ (by decide),
    plain_spelled ⟨trivial, Predicate.schema_spelled, trivial⟩ (by decide),
    plain_spelled ⟨trivial, trivial⟩ (by decide),
    plain_spelled ⟨trivial, trivial, trivial⟩ (by decide),
    plain_spelled ⟨trivial, trivial, trivial⟩ (by decide), trivial⟩, by decide⟩

theorem Command.schema_spelled : Command.schema.Spelled := by
  rw [Command.schema, Schema.Spelled]
  exact ⟨⟨trivial, Operation.schema_spelled, trivial⟩, by decide⟩

/-! ## Sizes -/

theorem length_flatMap_le_of_sublist {α : Type} {xs ys : List α} (h : xs.Sublist ys)
    (encode : α → Bytes) : (xs.flatMap encode).length ≤ (ys.flatMap encode).length := by
  induction h with
  | slnil => exact Nat.le_refl _
  | cons y _ ih =>
    rw [List.flatMap_cons, List.length_append]
    omega
  | cons_cons y _ ih =>
    rw [List.flatMap_cons, List.flatMap_cons, List.length_append, List.length_append]
    omega

theorem Command.encode_getValues (i b : String) (ks : KeySet) (p : Option Predicate) :
    Command.schema.encode ⟨i, .getValues b ks p⟩ = Schema.text.encode i ++
      (Bytes.littleEndian 4 2 ++
      (Schema.text.encode b ++ ((Schema.set .key).encode ks ++
        Operation.predicateField.encode (p, ()))) ++ []) := by
  simp only [Command.schema, Operation.schema, Operation.plain, Operation.bucketField,
    Schema.encode, Fields.encode, Cases.encode, Bool.false_eq_true, if_false]
  rfl

theorem Schema.length_keys (ks : KeySet) :
    ((Schema.set .key).encode ks).length = 8 + (ks.keys.flatMap Schema.key.encode).length := by
  rw [Schema.encode, List.length_append, Wire.length_encodeLength]

/-- A command that asks for fewer keys is no longer than the whole one. -/
theorem Command.length_narrowed {ks share : KeySet} (hsub : share.entries.Sublist ks.entries)
    (i b : String) (p : Option Predicate) :
    (Command.schema.encode ⟨i, .getValues b share p⟩).length ≤
      (Command.schema.encode ⟨i, .getValues b ks p⟩).length := by
  have hsubkeys : share.keys.Sublist ks.keys := hsub.map _
  have hkeys := length_flatMap_le_of_sublist hsubkeys Schema.key.encode
  rw [encode_getValues, encode_getValues]
  simp only [List.length_append, Schema.length_keys]
  omega

theorem Reply.length_values (vs : Documents) :
    (Reply.schema.encode (.ok (.values vs))).length = 16 +
      (vs.entries.flatMap fun e => Schema.key.encode e.1 ++ Document.schema.encode e.2).length := by
  simp only [Reply.schema, Answer.schema, Schema.keyMap, Schema.encode, Cases.encode,
    Bool.false_eq_true,
    if_false, List.length_append, Bytes.length_littleEndian, Wire.length_encodeLength]
  omega

theorem Reply.length_entries (es : List (Key × Document)) :
    (Reply.schema.encode (.ok (.entries es))).length =
    16 + (es.flatMap fun e => Schema.key.encode e.1 ++ Document.schema.encode e.2).length := by
  simp only [Reply.schema, Answer.schema, Schema.encode, Cases.encode, Bool.false_eq_true, if_false,
    List.length_append, Bytes.length_littleEndian, Wire.length_encodeLength]
  omega

theorem Reply.length_keys (ks : KeySet) : (Reply.schema.encode (.ok (.keys ks))).length =
    16 + (ks.keys.flatMap Schema.key.encode).length := by
  simp only [Reply.schema, Answer.schema, Schema.encode, Cases.encode, Bool.false_eq_true, if_false,
    List.length_append, Bytes.length_littleEndian, Wire.length_encodeLength]
  omega

theorem Reply.fits_values {vs ws : Documents} (hsub : vs.entries.Sublist ws.entries)
    (h : Reply.schema.Fits (.ok (.values ws))) : Reply.schema.Fits (.ok (.values vs)) := by
  have hlen := length_flatMap_le_of_sublist hsub fun e =>
    Schema.key.encode e.1 ++ Document.schema.encode e.2
  unfold Schema.Fits at h ⊢
  rw [length_values] at h ⊢
  omega

theorem Reply.fits_keys {ks ls : KeySet} (hsub : ks.entries.Sublist ls.entries)
    (h : Reply.schema.Fits (.ok (.keys ls))) : Reply.schema.Fits (.ok (.keys ks)) := by
  have hsubkeys : ks.keys.Sublist ls.keys := hsub.map _
  have hlen := length_flatMap_le_of_sublist hsubkeys Schema.key.encode
  unfold Schema.Fits at h ⊢
  rw [length_keys] at h ⊢
  omega

/-- Some of the documents of a bucket, in any order, fit if all of them do. -/
theorem Reply.fits_entries {es l l' : List (Key × Document)} {ws : Documents} (hsub : es.Sublist l)
    (hperm : l.Perm l') (hsub' : l'.Sublist ws.entries) (h : Reply.schema.Fits (.ok (.values ws))) :
    Reply.schema.Fits (.ok (.entries es)) := by
  have hlen := length_flatMap_le_of_sublist hsub fun e =>
    Schema.key.encode e.1 ++ Document.schema.encode e.2
  have hlen' :=
    length_flatMap_le_of_sublist hsub' fun e => Schema.key.encode e.1 ++ Document.schema.encode e.2
  have hl :=
    (hperm.flatMap_right fun e => Schema.key.encode e.1 ++ Document.schema.encode e.2).length_eq
  unfold Schema.Fits at h ⊢
  rw [length_values] at h
  rw [length_entries]
  omega

end BucketCluster
