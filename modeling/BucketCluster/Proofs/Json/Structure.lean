import BucketCluster.Json.Structure
import BucketCluster.Proofs.Json.Number
import BucketCluster.Proofs.Json.Token
import Mathlib.Data.List.Forall2

/-!
# Lists and objects are read back

`Reads item x text` says that a reader gets `x` out of `text`, whatever follows it
that does not continue a number.  If every element of a list is read out of its
text, so is the list (`listTail_writeList`).  An object is read member by member,
each on top of what the ones before it amount to; `Chain` follows that from the first
member to the last, and `members_writeObject` says where it ends.
-/

namespace BucketCluster.Json

/-! ## Values and their texts -/

/-- The text of a value begins with neither a blank nor a comma nor a closing bracket. -/
def Opens (text : Bytes) : Prop :=
  ∃ b rest, text = b :: rest ∧ isBlank b = false ∧ b ≠ 44 ∧ b ≠ 93 ∧ b ≠ 125

theorem Opens.cons {b : UInt8} (h : isBlank b = false ∧ b ≠ 44 ∧ b ≠ 93 ∧ b ≠ 125) (rest : Bytes) :
    Opens (b :: rest) :=
  ⟨b, rest, rfl, h⟩

theorem Opens.ne_nil {text : Bytes} (h : Opens text) : text ≠ [] := by
  obtain ⟨b, rest, rfl, -⟩ := h
  exact List.cons_ne_nil b rest

/-- A digit is no blank and delimits nothing. -/
theorem opens_of_isDigit {d : UInt8} (h : Bytes.isDigit d = true) :
    isBlank d = false ∧ d ≠ 44 ∧ d ≠ 93 ∧ d ≠ 125 := by
  refine ⟨?_, ?_, ?_, ?_⟩
  · unfold isBlank
    simp only [Bool.or_eq_false_iff, decide_eq_false_iff_not]
    refine ⟨⟨⟨?_, ?_⟩, ?_⟩, ?_⟩ <;> rintro rfl <;> cases h
  all_goals rintro rfl; cases h

theorem Opens.decimal (n : Nat) : Opens (Bytes.decimal n) := by
  obtain ⟨d, ds, hds, hdigit, -⟩ := Bytes.decimal_cons n
  rw [hds]
  exact .cons (opens_of_isDigit hdigit) ds

theorem skipBlanks_opens {text : Bytes} (h : Opens text) (t : Bytes) :
    skipBlanks (text ++ t) = text ++ t := by
  obtain ⟨b, rest, rfl, hb, -⟩ := h
  exact skipBlanks_cons hb (rest ++ t)

/-- The value is read out of the text, and what follows is left. -/
structure Reads {α : Type} (item : Reader α) (x : α) (text : Bytes) : Prop where
  opens : Opens text
  read : ∀ t, EndsNumber t → item (text ++ t) = .ok (x, t)

/-! ## Lists -/

theorem commaSeparated_cons (text : Bytes) (texts : List Bytes) :
    commaSeparated (text :: texts) = text ++ texts.flatMap (44 :: ·) := by
  induction texts generalizing text with
  | nil => rw [commaSeparated, List.flatMap_nil, List.append_nil]
  | cons next texts ih =>
    have hnext : commaSeparated (text :: next :: texts) =
        text ++ 44 :: commaSeparated (next :: texts) := rfl
    rw [hnext, ih, List.flatMap_cons, List.cons_append]

theorem length_le_commas (texts : List Bytes) :
    texts.length ≤ (texts.flatMap (44 :: ·)).length := by
  induction texts with
  | nil => exact Nat.le_refl _
  | cons text texts ih =>
    rw [List.flatMap_cons, List.length_append, List.length_cons, List.length_cons]
    omega

theorem endsNumber_commas (texts : List Bytes) (close : UInt8) (rest : Bytes)
    (h : Bytes.isDigit close = false ∧ close ≠ 46 ∧ close ≠ 101 ∧ close ≠ 69) :
    EndsNumber (texts.flatMap (44 :: ·) ++ close :: rest) := by
  cases texts with
  | nil => exact .cons h rest
  | cons text texts => exact .cons (by decide) _

theorem nextElement_first {text : Bytes} (h : Opens text) (t : Bytes) :
    nextElement true (text ++ t) = .ok (some (text ++ t)) := by
  unfold nextElement
  rw [skipBlanks_opens h]
  obtain ⟨b, rest, rfl, -, -, h93, -⟩ := h
  simp only [List.cons_append]
  rw [if_neg h93, if_pos trivial]

theorem nextElement_comma {text : Bytes} (h : Opens text) (t : Bytes) :
    nextElement false (44 :: (text ++ t)) = .ok (some (text ++ t)) := by
  unfold nextElement
  rw [skipBlanks_cons (by decide)]
  simp only
  rw [skipBlanks_opens h]
  obtain ⟨b, rest, rfl, -, -, h93, -⟩ := h
  simp only [List.cons_append]
  rw [if_neg (by decide), if_neg Bool.false_ne_true, if_pos trivial, if_neg h93]

section Lists

variable {α : Type} {item : Reader α} {xs : List α} {texts : List Bytes}

/-- The elements behind a comma each. -/
theorem elementsAux_commas (h : List.Forall₂ (Reads item) xs texts) {fuel : Bytes}
    (hfuel : texts.length < fuel.length) (rest : Bytes) :
    elementsAux item fuel false (texts.flatMap (44 :: ·) ++ 93 :: rest) = .ok (xs, 93 :: rest) := by
  induction h generalizing fuel with
  | nil =>
    cases fuel with
    | nil => cases hfuel
    | cons f fuel => rfl
  | @cons x text xs texts hx hxs ih =>
    cases fuel with
    | nil => cases hfuel
    | cons f fuel =>
      have hmore := ih (Nat.lt_of_succ_lt_succ hfuel)
      have hread := hx.read _ (endsNumber_commas texts 93 rest (by decide))
      rw [List.flatMap_cons, List.cons_append, List.cons_append, List.append_assoc, elementsAux,
        nextElement_comma hx.opens]
      show (item (text ++ _) >>= _) = _
      rw [hread]
      show (elementsAux item fuel false _ >>= _) = _
      rw [hmore]
      rfl

/-- A list is read back if its elements are. -/
theorem listTail_writeList (h : List.Forall₂ (Reads item) xs texts) (rest : Bytes) :
    listTail item (commaSeparated texts ++ 93 :: rest) = .ok (xs, rest) := by
  cases h with
  | nil => rfl
  | @cons x text xs texts hx hxs =>
    have hread := hx.read _ (endsNumber_commas texts 93 rest (by decide))
    have hlen := length_le_commas texts
    rw [commaSeparated_cons, List.append_assoc, listTail]
    cases hfuel : text ++ (texts.flatMap (44 :: ·) ++ 93 :: rest) with
    | nil => exact absurd (List.append_eq_nil_iff.1 hfuel).1 hx.opens.ne_nil
    | cons f fuel =>
      have hpos := List.length_pos_iff.2 hx.opens.ne_nil
      have hsize := congrArg List.length hfuel
      simp only [List.length_append, List.length_cons] at hsize
      rw [elementsAux, ← hfuel, nextElement_first hx.opens]
      show ((item (text ++ _) >>= _) >>= _) = _
      rw [hread]
      show ((elementsAux item fuel false _ >>= _) >>= _) = _
      rw [elementsAux_commas hxs (by omega)]
      rfl

end Lists

theorem writeList_eq (texts : List Bytes) (rest : Bytes) :
    writeList texts ++ rest = 91 :: (commaSeparated texts ++ 93 :: rest) := by
  rw [writeList, List.cons_append, List.append_assoc, List.singleton_append]

theorem opens_writeList (texts : List Bytes) : Opens (writeList texts) := .cons (by decide) _

/-! ## Objects -/

/-- A member as it stands in an object. -/
def memberText (m : String × Bytes) : Bytes := quote m.1 ++ 58 :: m.2

theorem writeObject_eq (ms : List (String × Bytes)) (rest : Bytes) :
    writeObject ms ++ rest = 123 :: (commaSeparated (ms.map memberText) ++ 125 :: rest) := by
  rw [writeObject, List.cons_append, List.append_assoc, List.singleton_append]
  rfl

theorem opens_writeObject (ms : List (String × Bytes)) : Opens (writeObject ms) :=
  .cons (by decide) _

theorem opens_quote (s : String) : Opens (quote s) := .cons (by decide) _

/-- The members are read one after the other, from one state to the other. -/
inductive Chain {σ : Type} (member : σ → Reader σ) : List (String × Bytes) → σ → σ → Prop
  | nil (s : σ) : Chain member [] s s
  | cons {name : String} {text : Bytes} {ms : List (String × Bytes)} {s s' s'' : σ}
      (read : ∀ t, EndsNumber t → member s (quoted name ++ 58 :: (text ++ t)) = .ok (s', t))
      (more : Chain member ms s' s'') : Chain member ((name, text) :: ms) s s''

section Objects

variable {σ : Type} {member : σ → Reader σ} {ms : List (String × Bytes)} {s s' : σ}

theorem memberText_append (name : String) (text t : Bytes) :
    memberText (name, text) ++ t = 34 :: (quoted name ++ 58 :: (text ++ t)) := by
  rw [memberText, quote_eq, List.cons_append, List.cons_append, List.append_assoc, List.cons_append]

/-- The members behind a comma each. -/
theorem membersAux_commas (h : Chain member ms s s') {fuel : Bytes}
    (hfuel : ms.length < fuel.length) (rest : Bytes) :
    membersAux member fuel false s ((ms.map memberText).flatMap (44 :: ·) ++ 125 :: rest) =
      .ok (s', 125 :: rest) := by
  induction h generalizing fuel with
  | nil s =>
    cases fuel with
    | nil => cases hfuel
    | cons f fuel => rfl
  | @cons name text ms s s' s'' hread _ ih =>
    cases fuel with
    | nil => cases hfuel
    | cons f fuel =>
      have hmore := ih (Nat.lt_of_succ_lt_succ hfuel)
      have hmember := hread _ (endsNumber_commas (ms.map memberText) 125 rest (by decide))
      rw [List.map_cons, List.flatMap_cons, List.cons_append, List.cons_append, List.append_assoc,
        memberText_append, membersAux]
      show (member s (quoted name ++ _) >>= _) = _
      rw [hmember]
      exact hmore

/-- An object is read to the state that its last member leads to. -/
theorem members_writeObject (h : Chain member ms s s') (rest : Bytes) :
    members member s (commaSeparated (ms.map memberText) ++ 125 :: rest) =
      .ok (s', 125 :: rest) := by
  cases h with
  | nil => rfl
  | @cons name text ms _ s₁ _ hread hmore =>
    have hmember := hread _ (endsNumber_commas (ms.map memberText) 125 rest (by decide))
    have hlen := length_le_commas (ms.map memberText)
    rw [List.length_map] at hlen
    rw [List.map_cons, commaSeparated_cons, List.append_assoc, memberText_append, members,
      membersAux]
    show (member s (quoted name ++ _) >>= _) = _
    rw [hmember]
    exact membersAux_commas hmore (by simp only [List.length_append, List.length_cons]; omega) rest

end Objects

/-! ## Printable text -/

theorem printable_decimal (n : Nat) : Printable (Bytes.decimal n) := by
  refine .ascii fun b hb => ?_
  have hdigit := Bytes.isDigit_decimal hb
  simp only [Bytes.isDigit, Bool.and_eq_true, decide_eq_true_eq] at hdigit
  exact ⟨UInt8.le_trans (by decide) hdigit.1, UInt8.lt_of_le_of_lt hdigit.2 (by decide)⟩

theorem printable_commaSeparated {texts : List Bytes} (h : ∀ text ∈ texts, Printable text) :
    Printable (commaSeparated texts) := by
  cases texts with
  | nil => exact .nil
  | cons text texts =>
    rw [commaSeparated_cons]
    refine (h text List.mem_cons_self).append (.flatMap fun t ht => ?_)
    exact .cons (by decide) (by decide) (h t (List.mem_cons_of_mem _ ht))

theorem printable_writeList {texts : List Bytes} (h : ∀ text ∈ texts, Printable text) :
    Printable (writeList texts) :=
  .cons (by decide) (by decide)
    ((printable_commaSeparated h).append (.singleton (by decide) (by decide)))

theorem printable_writeObject {ms : List (String × Bytes)} (h : ∀ m ∈ ms, Printable m.2) :
    Printable (writeObject ms) := by
  refine .cons (by decide) (by decide)
    (.append (printable_commaSeparated ?_) (.singleton (by decide) (by decide)))
  intro text htext
  obtain ⟨m, hm, rfl⟩ := List.mem_map.1 htext
  exact (printable_quote m.1).append (.cons (by decide) (by decide) (h m hm))

end BucketCluster.Json
