import BucketCluster.Json.Value
import BucketCluster.Proofs.Json.Structure
import BucketCluster.Proofs.Lists
import BucketCluster.Proofs.SortedMap

/-!
# Documents are read back

A document that was read has the members of its objects in order and is nested no
deeper than documents may be (`Stored`).  Such a document is read back from its text
if its numbers are whole (`parse_write`): the text of another number may stand for
one next to it.
-/

namespace BucketCluster.Json

/-! ## What reading gives -/

/-- Documents as they are kept: nested at most so deep, the members of objects in order. -/
inductive Stored : Nat → Json → Prop
  | null (depth : Nat) : Stored depth .null
  | bool (depth : Nat) (b : Bool) : Stored depth (.bool b)
  | number (depth : Nat) (n : Number) : Stored depth (.number n)
  | string (depth : Nat) (s : String) : Stored depth (.string s)
  | array {depth : Nat} {xs : List Json} (items : ∀ x ∈ xs, Stored depth x) :
      Stored (depth + 1) (.array xs)
  | object {depth : Nat} {ms : List (String × Json)} (sorted : Entries.Sorted ms)
      (members : ∀ m ∈ ms, Stored depth m.2) : Stored (depth + 1) (.object ms)

section Readers

variable {α σ : Type} {bs rest : Bytes}

theorem of_elementsAux {item : Reader α} {P : α → Prop}
    (hitem : ∀ {bs x rest}, item bs = .ok (x, rest) → P x) {fuel : Bytes} {first : Bool}
    {xs : List α} (h : elementsAux item fuel first bs = .ok (xs, rest)) : ∀ x ∈ xs, P x := by
  induction fuel generalizing first bs xs rest with
  | nil => cases h
  | cons f fuel ih =>
    rw [elementsAux] at h
    obtain ⟨next, -, h⟩ := of_bind_ok h
    cases next with
    | none =>
      cases h
      exact List.forall_mem_nil P
    | some bs =>
      obtain ⟨⟨x, tail⟩, hx, h⟩ := of_bind_ok h
      obtain ⟨⟨more, tail'⟩, hmore, h⟩ := of_bind_ok h
      cases h
      exact List.forall_mem_cons.2 ⟨hitem hx, ih hmore⟩

/-- What holds of every element that can be read holds of all elements of a list. -/
theorem of_listTail {item : Reader α} {P : α → Prop}
    (hitem : ∀ {bs x rest}, item bs = .ok (x, rest) → P x) {xs : List α}
    (h : listTail item bs = .ok (xs, rest)) : ∀ x ∈ xs, P x := by
  obtain ⟨⟨ys, tail⟩, hys, h⟩ := of_bind_ok h
  obtain ⟨tail', -, h⟩ := of_bind_ok h
  cases h
  exact of_elementsAux hitem hys

/-- What every member keeps holds after all of them. -/
theorem of_membersAux {member : σ → Reader σ} {P : σ → Prop}
    (hmember : ∀ {s bs s' rest}, P s → member s bs = .ok (s', rest) → P s') {fuel : Bytes}
    {first : Bool} {s s' : σ} (hs : P s)
    (h : membersAux member fuel first s bs = .ok (s', rest)) : P s' := by
  induction fuel generalizing first bs s with
  | nil => cases h
  | cons f fuel ih =>
    rw [membersAux] at h
    obtain ⟨next, -, h⟩ := of_bind_ok h
    cases next with
    | none =>
      cases h
      exact hs
    | some bs =>
      obtain ⟨⟨s₁, tail⟩, hs₁, h⟩ := of_bind_ok h
      exact ih (hmember hs hs₁) h

end Readers

/-- Reads a member of a document behind those before it, the opening quote of its name taken off. -/
def member (depth : Nat) (ms : List (String × Json)) : Reader (List (String × Json)) := fun bs => do
  let (name, bs) ← stringTail bs
  let bs ← colon bs
  let (x, bs) ← value depth bs
  .ok (Entries.insert name x ms, bs)

/-- A document is a list, an object, or has no depth at all. -/
theorem value_cases {depth : Nat} {bs rest : Bytes} {j : Json}
    (h : value depth bs = .ok (j, rest)) :
    (∀ d, Stored d j) ∨
      (∃ d xs tail, depth = d + 1 ∧ j = .array xs ∧ listTail (value d) tail = .ok (xs, rest)) ∨
      ∃ d ms tail tail', depth = d + 1 ∧ j = .object ms ∧
        members (member d) [] tail = .ok (ms, tail') := by
  unfold value at h
  split at h
  · cases h
  split at h
  · obtain ⟨_, -, h⟩ := of_map_ok h
    cases h
    exact .inl fun d => .null d
  split at h
  · obtain ⟨_, -, h⟩ := of_map_ok h
    cases h
    exact .inl fun d => .bool d true
  split at h
  · obtain ⟨_, -, h⟩ := of_map_ok h
    cases h
    exact .inl fun d => .bool d false
  split at h
  · obtain ⟨⟨n, _⟩, -, h⟩ := of_map_ok h
    cases h
    exact .inl fun d => .number d n
  split at h
  · obtain ⟨⟨s, _⟩, -, h⟩ := of_map_ok h
    cases h
    exact .inl fun d => .string d s
  split at h
  · split at h
    · cases h
    · next d =>
      obtain ⟨⟨xs, _⟩, hxs, h⟩ := of_map_ok h
      cases h
      exact .inr (.inl ⟨d, xs, _, rfl, rfl, hxs⟩)
  split at h
  · split at h
    · cases h
    · next d =>
      obtain ⟨⟨ms, tail⟩, hms, h⟩ := of_bind_ok h
      obtain ⟨tail', -, h⟩ := of_bind_ok h
      cases h
      exact .inr (.inr ⟨d, ms, _, tail, rfl, rfl, hms⟩)
  · cases h

/-- **What is read is kept in order.** -/
theorem stored_of_value {depth : Nat} {bs rest : Bytes} {j : Json}
    (h : value depth bs = .ok (j, rest)) : Stored depth j := by
  induction depth generalizing bs rest j with
  | zero =>
    obtain hleaf | ⟨d, _, _, hd, -⟩ | ⟨d, _, _, _, hd, -⟩ := value_cases h
    · exact hleaf 0
    · cases hd
    · cases hd
  | succ depth ih =>
    obtain hleaf | ⟨d, xs, tail, hd, rfl, hxs⟩ | ⟨d, ms, tail, tail', hd, rfl, hms⟩ := value_cases h
    · exact hleaf (depth + 1)
    · cases hd
      exact .array (of_listTail ih hxs)
    · cases hd
      have hinsert : ∀ {ms bs ms' rest}, (Entries.Sorted ms ∧ ∀ m ∈ ms, Stored depth m.2) →
          member depth ms bs = .ok (ms', rest) →
            Entries.Sorted ms' ∧ ∀ m ∈ ms', Stored depth m.2 := by
        intro ms bs ms' rest hms h
        obtain ⟨⟨name, _⟩, -, h⟩ := of_bind_ok h
        obtain ⟨_, -, h⟩ := of_bind_ok h
        obtain ⟨⟨x, _⟩, hx, h⟩ := of_bind_ok h
        cases h
        refine ⟨hms.1.insert name x, fun m hm => ?_⟩
        rcases Entries.key_mem_insert hm with rfl | hm
        · exact ih hx
        · exact hms.2 m hm
      obtain ⟨hsorted, hall⟩ := of_membersAux hinsert ⟨.nil, nofun⟩ hms
      exact .object hsorted hall

theorem stored_of_parse {bs : Bytes} {j : Json} (h : parse bs = .ok j) : Stored maxDepth j := by
  obtain ⟨⟨x, rest⟩, hx, h⟩ := of_bind_ok h
  simp only at h
  split at h
  · cases h
    exact stored_of_value hx
  · cases h

/-! ## Round trips -/

/-- The numbers of the document are whole. -/
inductive Whole : Json → Prop
  | null : Whole .null
  | bool (b : Bool) : Whole (.bool b)
  | number {n : Number} (h : n.IsWhole) : Whole (.number n)
  | string (s : String) : Whole (.string s)
  | array {xs : List Json} (items : ∀ x ∈ xs, Whole x) : Whole (.array xs)
  | object {ms : List (String × Json)} (members : ∀ m ∈ ms, Whole m.2) : Whole (.object ms)

theorem writeItems_eq (xs : List Json) : writeItems xs = xs.map write := by
  induction xs with
  | nil => rfl
  | cons x xs ih => rw [writeItems, ih, List.map_cons]

theorem writeMembers_eq (ms : List (String × Json)) :
    writeMembers ms = ms.map fun m => (m.1, m.2.write) := by
  induction ms with
  | nil => rfl
  | cons m ms ih => rw [writeMembers, ih, List.map_cons]

/-- A name beyond all others comes last. -/
theorem insert_of_lt {name : String} {x : Json} {ms : List (String × Json)}
    (h : ∀ m ∈ ms, compare m.1 name = .lt) : Entries.insert name x ms = ms ++ [(name, x)] := by
  induction ms with
  | nil => rfl
  | cons m ms ih =>
    have hm : compare name m.1 = .gt := Std.OrientedCmp.gt_of_lt (h m List.mem_cons_self)
    rw [Entries.insert, hm]
    simp only
    rw [ih fun m' hm' => h m' (List.mem_cons_of_mem _ hm'), List.cons_append]

/-- Members are read one behind the other, since they were written in order. -/
theorem chain_write {depth : Nat} {ms acc : List (String × Json)}
    (hsorted : Entries.Sorted (acc ++ ms)) (h : ∀ m ∈ ms, Reads (value depth) m.2 m.2.write) :
    Chain (member depth) (ms.map fun m => (m.1, m.2.write)) acc (acc ++ ms) := by
  induction ms generalizing acc with
  | nil =>
    rw [List.append_nil]
    exact .nil acc
  | cons m ms ih =>
    have hlast : ∀ a ∈ acc, compare a.1 m.1 = .lt := fun a ha =>
      (List.pairwise_append.1 hsorted).2.2 a ha m List.mem_cons_self
    have hassoc : acc ++ m :: ms = (acc ++ [m]) ++ ms := by
      rw [List.append_assoc, List.singleton_append]
    rw [hassoc] at hsorted
    rw [hassoc, List.map_cons]
    refine .cons (fun t ht => ?_) (ih hsorted fun m' hm' => h m' (List.mem_cons_of_mem _ hm'))
    rw [member, stringTail_quoted]
    show ((value depth (m.2.write ++ t) >>= _) : Except Fault _) = _
    rw [(h m List.mem_cons_self).read t ht]
    exact congrArg (fun ms => Except.ok (ms, t)) (insert_of_lt hlast)

/-- A number is told from the other documents by its first byte. -/
theorem reads_number (depth : Nat) {n : Number} (h : n.IsWhole) :
    Reads (value depth) (.number n) (Json.number n).write := by
  obtain ⟨b, bs, hwrite, hb⟩ := Number.write_cons h
  have hblank : isBlank b = false ∧ b ≠ 44 ∧ b ≠ 93 ∧ b ≠ 125 := by
    rcases hb with rfl | hdigit
    · decide
    · exact opens_of_isDigit hdigit
  refine ⟨?_, fun t ht => ?_⟩
  · rw [write, hwrite]
    exact .cons hblank bs
  · have hread := readNumber_write h ht
    have hkind : (b = 45 || Bytes.isDigit b) = true := by simpa using hb
    have hword : b ≠ 110 ∧ b ≠ 116 ∧ b ≠ 102 := by
      refine ⟨?_, ?_, ?_⟩ <;> rintro rfl <;> cases hkind
    rw [write, hwrite, List.cons_append, value, skipBlanks_cons hblank.1]
    simp only
    rw [if_neg hword.1, if_neg hword.2.1, if_neg hword.2.2, if_pos hkind, ← List.cons_append,
      ← hwrite, hread]
    rfl

/-- **Documents are read back**, whatever follows them. -/
theorem reads_write {depth : Nat} {j : Json} (h : Stored depth j) (hwhole : Whole j) :
    Reads (value depth) j j.write := by
  induction h with
  | null depth =>
    refine ⟨.cons (by decide) _, fun t _ => ?_⟩
    rw [write, nullText, List.cons_append, value, skipBlanks_cons (by decide)]
    simp only
    rw [if_pos trivial, expectWord_append]
    rfl
  | bool depth b =>
    cases b with
    | true =>
      refine ⟨.cons (by decide) _, fun t _ => ?_⟩
      rw [write, List.cons_append, value, skipBlanks_cons (by decide)]
      simp only
      rw [if_neg (by decide), if_pos trivial, expectWord_append]
      rfl
    | false =>
      refine ⟨.cons (by decide) _, fun t _ => ?_⟩
      rw [write, List.cons_append, value, skipBlanks_cons (by decide)]
      simp only
      rw [if_neg (by decide), if_neg (by decide), if_pos trivial, expectWord_append]
      rfl
  | number depth n =>
    cases hwhole with
    | number hn => exact reads_number depth hn
  | string depth s =>
    refine ⟨opens_quote s, fun t _ => ?_⟩
    rw [write, quote_eq, List.cons_append, value, skipBlanks_cons (by decide)]
    simp only
    rw [if_neg (by decide), if_neg (by decide), if_neg (by decide), if_neg (by decide),
      if_pos trivial, stringTail_quoted]
    rfl
  | @array depth xs _ ih =>
    cases hwhole with
    | array hitems =>
      have hxs : List.Forall₂ (Reads (value depth)) xs (xs.map write) := by
        rw [List.forall₂_map_right_iff, List.forall₂_same]
        exact fun x hx => ih x hx (hitems x hx)
      refine ⟨opens_writeList _, fun t _ => ?_⟩
      rw [write, writeItems_eq, writeList_eq, value, skipBlanks_cons (by decide)]
      simp only
      rw [if_neg (by decide), if_neg (by decide), if_neg (by decide), if_neg (by decide),
        if_neg (by decide), if_pos trivial, listTail_writeList hxs]
      rfl
  | @object depth ms hsorted _ ih =>
    cases hwhole with
    | object hmembers =>
      have happend : Entries.Sorted ([] ++ ms) := hsorted
      have hchain := chain_write happend fun m hm => ih m hm (hmembers m hm)
      refine ⟨opens_writeObject _, fun t _ => ?_⟩
      rw [write, writeMembers_eq, writeObject_eq, value, skipBlanks_cons (by decide)]
      simp only
      rw [if_neg (by decide), if_neg (by decide), if_neg (by decide), if_neg (by decide),
        if_neg (by decide), if_neg (by decide), if_pos trivial]
      show ((Json.members (member depth) [] _ >>= _) : Except Fault _) = _
      rw [members_writeObject hchain]
      rfl

/-- **The text of a document denotes it.** -/
theorem parse_write {j : Json} (h : Stored maxDepth j) (hwhole : Whole j) :
    parse j.write = .ok j := by
  have hread := (reads_write h hwhole).read [] .nil
  rw [List.append_nil] at hread
  rw [parse, Reader.whole, hread]
  rfl

end BucketCluster.Json
