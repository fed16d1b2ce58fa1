import BucketCluster.Proofs.SortedMap
import BucketCluster.Proofs.Text.Utf8
import BucketCluster.Schema.Wire

/-!
# The binary format is read back

A schema is lawful if its two directions fit together: `make` undoes `parts`, and
of the alternatives of a choice one holds, and the first that does gives the message
back.  `decode_encode` says that a message of a lawful schema is read back off the
front of whatever follows it, as long as its bytes can be counted in a length of
eight bytes.
-/

namespace BucketCluster

/-! ## Numbers -/

namespace Bytes

@[simp] theorem length_littleEndian (width n : Nat) : (littleEndian width n).length = width := by
  induction width generalizing n with
  | zero => rfl
  | succ width ih => rw [littleEndian, List.length_cons, ih]

theorem ofLittleEndian_littleEndian {width n : Nat} (h : n < 256 ^ width) :
    ofLittleEndian (littleEndian width n) = n := by
  induction width generalizing n with
  | zero =>
    rw [Nat.pow_zero] at h
    rw [littleEndian, ofLittleEndian]
    omega
  | succ width ih =>
    rw [Nat.pow_succ] at h
    rw [littleEndian, ofLittleEndian, ih (by omega), UInt8.toNat_ofNat']
    omega

end Bytes

namespace Wire

/-! ## Parts of a message -/

theorem splitAt_append (front t : Bytes) : splitAt front.length (front ++ t) = .ok (front, t) := by
  rw [splitAt, if_neg (by rw [List.length_append]; omega), List.take_left, List.drop_left]

theorem word_littleEndian {width n : Nat} (h : n < 256 ^ width) (t : Bytes) :
    word width (Bytes.littleEndian width n ++ t) = .ok (n, t) := by
  have hsplit := splitAt_append (Bytes.littleEndian width n) t
  rw [Bytes.length_littleEndian] at hsplit
  rw [word, hsplit]
  change Except.ok (Bytes.ofLittleEndian (Bytes.littleEndian width n), t) = _
  rw [Bytes.ofLittleEndian_littleEndian h]

theorem length_encodeLength (n : Nat) : (encodeLength n).length = 8 := Bytes.length_littleEndian 8 n

theorem word_encodeLength {n : Nat} (h : n < 2 ^ 64) (t : Bytes) :
    word 8 (encodeLength n ++ t) = .ok (n, t) :=
  word_littleEndian (by omega) t

theorem sized_encode {raw : Bytes} (h : raw.length < 2 ^ 64) (t : Bytes) :
    sized (encodeLength raw.length ++ raw ++ t) = .ok (raw, t) := by
  rw [sized, List.append_assoc, word_encodeLength h]
  exact splitAt_append raw t

theorem times_encode {α : Type} {item : Decoder α} {encode : α → Bytes} {xs : List α}
    (h : ∀ x ∈ xs, ∀ t, item (encode x ++ t) = .ok (x, t)) (t : Bytes) :
    times item xs.length (xs.flatMap encode ++ t) = .ok (xs, t) := by
  induction xs with
  | nil => rfl
  | cons x xs ih =>
    rw [List.length_cons, times, List.flatMap_cons, List.append_assoc, h x List.mem_cons_self]
    change (times item xs.length (xs.flatMap encode ++ t) >>= _) = _
    rw [ih fun y hy => h y (List.mem_cons_of_mem _ hy)]
    rfl

theorem many_encode {α : Type} {item : Decoder α} {encode : α → Bytes} {xs : List α}
    (hlen : xs.length < 2 ^ 64) (h : ∀ x ∈ xs, ∀ t, item (encode x ++ t) = .ok (x, t)) (t : Bytes) :
    many item (encodeLength xs.length ++ xs.flatMap encode ++ t) = .ok (xs, t) := by
  rw [many, List.append_assoc, word_encodeLength hlen]
  exact times_encode h t

theorem length_le_flatMap {α : Type} (encode : α → Bytes) {xs : List α} {x : α} (hx : x ∈ xs) :
    (encode x).length ≤ (xs.flatMap encode).length :=
  (List.sublist_flatten_of_mem (List.mem_map_of_mem hx)).length_le

/-- Values that take bytes are no more than the bytes. -/
theorem length_le_of_ne_nil {α : Type} {encode : α → Bytes} {xs : List α} (h : ∀ x, encode x ≠ []) :
    xs.length ≤ (xs.flatMap encode).length := by
  induction xs with
  | nil => exact Nat.le_refl _
  | cons x xs ih =>
    have hpos := List.length_pos_iff.2 (h x)
    rw [List.length_cons, List.flatMap_cons, List.length_append]
    omega

end Wire

/-! ## Lawful schemas -/

/-- Some alternative holds of the message. -/
def Cases.Covers {α : Type} (x : α) : Cases α → Prop
  | .nil => False
  | .unit _ _ is rest => is x = true ∨ rest.Covers x
  | .case _ _ _ take rest => (take x).isSome = true ∨ rest.Covers x

def Cases.count {α : Type} : Cases α → Nat
  | .nil => 0
  | .unit _ _ _ rest => rest.count + 1
  | .case _ _ _ _ rest => rest.count + 1

mutual

/-- Both directions of the schema fit together. -/
def Schema.Lawful : {α : Type} → Schema α → Prop
  | _, .text => True
  | _, .octets => True
  | _, .key => True
  | _, .word32 => True
  | _, .word64 => True
  | _, .option item => item.Lawful
  | _, .list item => item.Lawful ∧ ∀ x, item.encode x ≠ []
  | _, .pair first second => first.Lawful ∧ second.Lawful
  | _, @Schema.set κ _ _ item => item.Lawful ∧ (∀ x, item.encode x ≠ []) ∧ Std.LawfulEqOrd κ
  | _, @Schema.map κ _ _ _ _ _ keys values =>
    keys.Lawful ∧ values.Lawful ∧ (∀ x, keys.encode x ≠ []) ∧ Std.LawfulEqOrd κ
  | _, .refine inner make parts => inner.Lawful ∧ ∀ x, make (parts x) = some x
  | _, .record fields make parts => fields.Lawful ∧ ∀ x, make (parts x) = x
  | _, .choice cases => cases.Lawful ∧ (∀ x, cases.Covers x) ∧ cases.count ≤ 2 ^ 32

def Fields.Lawful : {α σ : Type} → Fields α σ → Prop
  | _, _, .nil => True
  | _, _, .field _ shape _ rest => shape.Lawful ∧ rest.Lawful

def Cases.Lawful : {α : Type} → Cases α → Prop
  | _, .nil => True
  | _, .unit _ value is rest => (∀ x, is x = true → value = x) ∧ rest.Lawful
  | _, .case _ shape make take rest =>
    shape.Lawful ∧ (∀ x y, take x = some y → make y = x) ∧ rest.Lawful

end

/-! ## Round trips -/

mutual

/-- A message is read back, and what follows it is left. -/
theorem Schema.decode_encode : {α : Type} → (schema : Schema α) → schema.Lawful → ∀ (x : α)
    (t : Bytes), (schema.encode x).length < 2 ^ 64 →
    schema.decode (schema.encode x ++ t) = .ok (x, t)
  | _, .text, _, s, t, hlen => by
    simp only [Schema.encode, List.length_append, Wire.length_encodeLength] at hlen
    simp only [Schema.encode, Schema.decode,
      Wire.sized_encode (by omega : (Utf8.encode s).length < 2 ^ 64)]
    change (match Utf8.decode? (Utf8.encode s) with
      | some s => Except.ok (s, t)
      | none => .error Wire.Fault.invalidText) = _
    rw [Utf8.decode?_encode]
  | _, .octets, _, bs, t, hlen => by
    simp only [Schema.encode, List.length_append, Wire.length_encodeLength] at hlen
    rw [Schema.encode, Schema.decode, Wire.sized_encode (by omega)]
  | _, .key, _, k, t, hlen => by
    simp only [Schema.encode, List.length_append, Wire.length_encodeLength] at hlen
    rw [Schema.encode, Schema.decode, Wire.sized_encode (by omega)]
    rfl
  | _, .word32, _, n, t, _ => by
    rw [Schema.encode, Schema.decode, Wire.word_littleEndian n.toNat_lt]
    exact congrArg (fun n => Except.ok (n, t)) UInt32.ofNat_toNat
  | _, .word64, _, n, t, _ => by
    rw [Schema.encode, Schema.decode, Wire.word_littleEndian n.toNat_lt]
    exact congrArg (fun n => Except.ok (n, t)) UInt64.ofNat_toNat
  | _, .option item, h, none, t, _ => by
    simp only [Schema.encode, Schema.decode, List.cons_append]
    rfl
  | _, .option item, h, some x, t, hlen => by
    rw [Schema.Lawful] at h
    simp only [Schema.encode, List.length_cons] at hlen
    simp only [Schema.encode, Schema.decode, List.cons_append]
    rw [if_neg (by decide), if_pos trivial, Schema.decode_encode item h x t (by omega)]
    rfl
  | _, .list item, h, xs, t, hlen => by
    rw [Schema.Lawful] at h
    simp only [Schema.encode, List.length_append, Wire.length_encodeLength] at hlen
    have hcount : xs.length ≤ (xs.flatMap item.encode).length := Wire.length_le_of_ne_nil h.2
    rw [Schema.encode, Schema.decode]
    refine Wire.many_encode (by omega) (fun x hx t => Schema.decode_encode item h.1 x t ?_) t
    have hitem : (item.encode x).length ≤ (xs.flatMap item.encode).length :=
      Wire.length_le_flatMap item.encode hx
    omega
  | _, .pair first second, h, (x, y), t, hlen => by
    rw [Schema.Lawful] at h
    simp only [Schema.encode, List.length_append] at hlen
    rw [Schema.encode, Schema.decode, List.append_assoc,
      Schema.decode_encode first h.1 x _ (by omega)]
    change (second.decode (second.encode y ++ t) >>= _) = _
    rw [Schema.decode_encode second h.2 y t (by omega)]
    rfl
  | _, @Schema.set _ _ _ item, h, s, t, hlen => by
    rw [Schema.Lawful] at h
    obtain ⟨hitem, hne, hlaw⟩ := h
    simp only [Schema.encode, List.length_append, Wire.length_encodeLength] at hlen
    have hcount : s.keys.length ≤ (s.keys.flatMap item.encode).length :=
      Wire.length_le_of_ne_nil hne
    have hmany : Wire.many item.decode
        (Wire.encodeLength s.keys.length ++ s.keys.flatMap item.encode ++ t) = .ok (s.keys, t) := by
      refine Wire.many_encode (by omega) (fun x hx t => Schema.decode_encode item hitem x t ?_) t
      have hx : (item.encode x).length ≤ (s.keys.flatMap item.encode).length :=
        Wire.length_le_flatMap item.encode hx
      omega
    rw [Schema.encode, Schema.decode, hmany]
    exact congrArg (fun s => Except.ok (s, t)) (SortedSet.ofElements_keys s)
  | _, @Schema.map _ _ _ _ _ _ keys values, h, m, t, hlen => by
    rw [Schema.Lawful] at h
    obtain ⟨hkeys, hvalues, hne, hlaw⟩ := h
    simp only [Schema.encode, List.length_append, Wire.length_encodeLength] at hlen
    rw [Schema.encode, Schema.decode, Wire.many_encode ?_ ?_ t]
    · exact congrArg (fun m => Except.ok (m, t)) (SortedMap.ofList_entries m)
    · have hcount : m.entries.length ≤
          (m.entries.flatMap fun e => keys.encode e.1 ++ values.encode e.2).length :=
        Wire.length_le_of_ne_nil fun e he => hne e.1 (List.append_eq_nil_iff.1 he).1
      omega
    · intro e he t
      have hitem := Wire.length_le_flatMap (fun e => keys.encode e.1 ++ values.encode e.2) he
      simp only [List.length_append] at hitem
      rw [List.append_assoc, Schema.decode_encode keys hkeys e.1 _ (by omega)]
      change (values.decode (values.encode e.2 ++ t) >>= _) = _
      rw [Schema.decode_encode values hvalues e.2 t (by omega)]
      rfl
  | _, .refine inner make parts, h, x, t, hlen => by
    rw [Schema.Lawful] at h
    rw [Schema.encode] at hlen
    rw [Schema.encode, Schema.decode, Schema.decode_encode inner h.1 (parts x) t hlen]
    change (match make (parts x) with
      | some x => Except.ok (x, t)
      | none => .error Wire.Fault.refused) = _
    rw [h.2]
  | _, .record fields make parts, h, x, t, hlen => by
    rw [Schema.Lawful] at h
    rw [Schema.encode] at hlen
    rw [Schema.encode, Schema.decode, Fields.decode_encode fields h.1 (parts x) t hlen]
    exact congrArg (fun x => Except.ok (x, t)) (h.2 x)
  | _, .choice cases, h, x, t, hlen => by
    rw [Schema.Lawful] at h
    obtain ⟨hcases, hcovers, hcount⟩ := h
    rw [Schema.encode] at hlen
    obtain ⟨m, body, hm, henc, hdec⟩ := Cases.decode_encode cases hcases x t 0 (hcovers x) hlen
    rw [Nat.zero_add] at henc
    rw [Schema.encode, Schema.decode, henc, List.append_assoc, Wire.word_littleEndian (by omega)]
    exact hdec

theorem Fields.decode_encode : {α σ : Type} → (fields : Fields α σ) → fields.Lawful → ∀ (x : α)
    (t : Bytes), (fields.encode x).length < 2 ^ 64 →
    fields.decode (fields.encode x ++ t) = .ok (x, t)
  | _, _, .nil, _, (), t, _ => by
    rw [Fields.encode, Fields.decode]
    rfl
  | _, _, .field _ shape _ rest, h, (x, xs), t, hlen => by
    rw [Fields.Lawful] at h
    simp only [Fields.encode, List.length_append] at hlen
    rw [Fields.encode, Fields.decode, List.append_assoc,
      Schema.decode_encode shape h.1 x _ (by omega)]
    change (rest.decode (rest.encode xs ++ t) >>= _) = _
    rw [Fields.decode_encode rest h.2 xs t (by omega)]
    rfl

/-- The number of the alternative that holds is written first, and read back it leads there. -/
theorem Cases.decode_encode : {α : Type} → (cases : Cases α) → cases.Lawful → ∀ (x : α) (t : Bytes)
    (n : Nat), cases.Covers x → (cases.encode n x).length < 2 ^ 64 →
      ∃ m body, m < cases.count ∧ cases.encode n x = Bytes.littleEndian 4 (n + m) ++ body ∧
        cases.decode m (body ++ t) = .ok (x, t)
  | _, .nil, _, x, t, n, hc, _ => hc.elim
  | _, .unit _ value is rest, h, x, t, n, hc, hlen => by
    rw [Cases.Lawful] at h
    rw [Cases.encode] at hlen ⊢
    by_cases hx : is x = true
    · rw [if_pos hx]
      refine ⟨0, [], by rw [Cases.count]; omega, by rw [List.append_nil, Nat.add_zero], ?_⟩
      rw [Cases.decode, h.1 x hx]
      rfl
    · rw [if_neg hx] at hlen ⊢
      obtain ⟨m, body, hm, henc, hdec⟩ :=
        Cases.decode_encode rest h.2 x t (n + 1) (hc.resolve_left hx) hlen
      refine ⟨m + 1, body, by rw [Cases.count]; omega, by rw [henc, Nat.add_assoc, Nat.add_comm 1],
        ?_⟩
      rw [Cases.decode]
      exact hdec
  | _, .case _ shape make take rest, h, x, t, n, hc, hlen => by
    rw [Cases.Lawful] at h
    rw [Cases.encode] at hlen ⊢
    cases hx : take x with
    | some y =>
      simp only [hx, List.length_append, Bytes.length_littleEndian] at hlen
      refine ⟨0, shape.encode y, by rw [Cases.count]; omega, rfl, ?_⟩
      rw [Cases.decode, Schema.decode_encode shape h.1 y t (by omega)]
      exact congrArg (fun x => Except.ok (x, t)) (h.2.1 x y hx)
    | none =>
      simp only [hx] at hlen
      have hrest : rest.Covers x := hc.resolve_left (by rw [hx]; simp)
      obtain ⟨m, body, hm, henc, hdec⟩ := Cases.decode_encode rest h.2.2 x t (n + 1) hrest hlen
      refine ⟨m + 1, body, by rw [Cases.count]; omega, by rw [henc, Nat.add_assoc, Nat.add_comm 1],
        ?_⟩
      rw [Cases.decode]
      exact hdec

end

/-- The bytes of the message can be counted, as those of any message that a machine holds. -/
def Schema.Fits {α : Type} (schema : Schema α) (x : α) : Prop := (schema.encode x).length < 2 ^ 64

theorem Schema.Fits.of_le {α : Type} {schema : Schema α} {x y : α} (h : schema.Fits y)
    (hle : (schema.encode x).length ≤ (schema.encode y).length) : schema.Fits x :=
  Nat.lt_of_le_of_lt hle h

instance {α : Type} (schema : Schema α) (x : α) : Decidable (schema.Fits x) :=
  inferInstanceAs (Decidable ((schema.encode x).length < 2 ^ 64))

/-- The message that the bytes begin with is the one that was written. -/
theorem Schema.decodeFront_encode {α : Type} {schema : Schema α} (h : schema.Lawful) {x : α}
    (hfits : schema.Fits x) : schema.decodeFront (schema.encode x) = .ok x := by
  have hdec := schema.decode_encode h x [] hfits
  rw [List.append_nil] at hdec
  rw [decodeFront, hdec]
  rfl

end BucketCluster
