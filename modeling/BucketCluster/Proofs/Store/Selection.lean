import BucketCluster.Store

/-!
# Selecting the first entries

What `select` gives is the top of a selection: a split of the entries into a
sorted top, as long as the range allows, and a rest of which no entry comes before
any of the top.  Selecting from the tops of several lists is selecting from all
their entries (`Selection.join`), so that entries which are cut off near where
they are stored are never missed.
-/

namespace BucketCluster.KeyRange

/-! ## Selections -/

/-- The entries are split into a top, in order, and a rest that is not before it. -/
structure Selection (r : KeyRange) (order : Comparator) (es top rest : List (Key × Document)) :
    Prop where
  perm : es.Perm (top ++ rest)
  sorted : top.Pairwise fun a b => (order a.1 b.1).isLE
  least : ∀ a ∈ top, ∀ b ∈ rest, (order a.1 b.1).isLE
  /-- Only a full top leaves a rest. -/
  full : rest ≠ [] → r.limit ≠ 0 ∧ r.limit.toNat ≤ top.length
  bounded : r.limit ≠ 0 → top.length ≤ r.limit.toNat

variable {r : KeyRange} {order : Comparator} {es es' top top' rest rest' : List (Key × Document)}

theorem Selection.of_perm (h : Selection r order es top rest) (hp : es'.Perm es) :
    Selection r order es' top rest :=
  { h with perm := hp.trans h.perm }

/-! ## One list -/

theorem sortEntries_perm (order : Comparator) (es : List (Key × Document)) :
    (sortEntries order es).Perm es :=
  List.mergeSort_perm es _

theorem truncate_sublist (r : KeyRange) (es : List (Key × Document)) :
    (r.truncate es).Sublist es := by
  unfold truncate
  split
  · exact .refl _
  · exact List.take_sublist _ _

theorem sortEntries_sorted (order : Comparator) [Std.TransCmp order] (es : List (Key × Document)) :
    (sortEntries order es).Pairwise fun a b => (order a.1 b.1).isLE := by
  unfold sortEntries
  refine List.pairwise_mergeSort (fun a b c => Std.TransCmp.isLE_trans) ?_ es
  intro a b
  cases h : (order a.1 b.1).isLE with
  | true => rfl
  | false =>
    have hswap : order b.1 a.1 = (order a.1 b.1).swap := Std.OrientedCmp.eq_swap
    rw [hswap, Bool.false_or]
    cases hab : order a.1 b.1 <;> simp [hab] at h ⊢

/-- What is cut off, if anything is, comes behind as many entries as the range allows. -/
theorem exists_truncate (r : KeyRange) (es : List (Key × Document)) :
    ∃ rest, r.truncate es ++ rest = es ∧
      (rest ≠ [] → r.limit ≠ 0 ∧ r.limit.toNat ≤ (r.truncate es).length) ∧
      (r.limit ≠ 0 → (r.truncate es).length ≤ r.limit.toNat) := by
  unfold truncate
  by_cases hl : r.limit = 0
  · rw [if_pos hl]
    exact ⟨[], List.append_nil _, fun h => absurd rfl h, fun h => absurd hl h⟩
  · rw [if_neg hl]
    refine ⟨es.drop r.limit.toNat, List.take_append_drop .., fun hne => ⟨hl, ?_⟩, fun _ => ?_⟩
    · have hlt : r.limit.toNat < es.length := by
        rcases Nat.lt_or_ge r.limit.toNat es.length with h | h
        · exact h
        · exact absurd (List.drop_of_length_le h) hne
      rw [List.length_take]
      omega
    · rw [List.length_take]
      omega

/-- Sorting and cutting off selects. -/
theorem selection_truncate (r : KeyRange) (order : Comparator) [Std.TransCmp order]
    (es : List (Key × Document)) :
    ∃ rest, Selection r order es (r.truncate (sortEntries order es)) rest := by
  obtain ⟨rest, hsplit, hfull, hbounded⟩ := r.exists_truncate (sortEntries order es)
  have hperm := (sortEntries_perm order es).symm
  have hsorted := sortEntries_sorted order es
  rw [← hsplit] at hsorted
  obtain ⟨htop, -, hleast⟩ := List.pairwise_append.1 hsorted
  exact ⟨rest, by rwa [hsplit], htop, hleast, hfull, hbounded⟩

/-! ## Several lists -/

/-- A list of selections, one below the other. -/
inductive Selections (r : KeyRange) (order : Comparator) :
    List (List (Key × Document)) → List (List (Key × Document)) → List (Key × Document) → Prop where
  | nil : Selections r order [] [] []
  | cons {es top rest : List (Key × Document)} {parts tops : List (List (Key × Document))}
      {rests : List (Key × Document)} :
      Selection r order es top rest → Selections r order parts tops rests →
        Selections r order (es :: parts) (top :: tops) (rest ++ rests)

variable {parts tops : List (List (Key × Document))} {rests : List (Key × Document)}

theorem Selections.perm (h : Selections r order parts tops rests) :
    parts.flatten.Perm (tops.flatten ++ rests) := by
  induction h with
  | nil => exact .nil
  | cons hs _ ih =>
    simp only [List.flatten_cons]
    apply (hs.perm.append ih).trans
    simp only [List.append_assoc]
    apply List.Perm.append_left _
    simp only [← List.append_assoc]
    exact List.Perm.append_right _ List.perm_append_comm

/-- An entry that was cut off has a full top before it. -/
theorem Selections.full (h : Selections r order parts tops rests) {b : Key × Document}
    (hb : b ∈ rests) :
    ∃ top ∈ tops, r.limit ≠ 0 ∧ r.limit.toNat ≤ top.length ∧ ∀ a ∈ top, (order a.1 b.1).isLE := by
  induction h with
  | nil => cases hb
  | cons hs _ ih =>
    rcases List.mem_append.1 hb with hb | hb
    · obtain ⟨hl, hlen⟩ := hs.full (List.ne_nil_of_mem hb)
      exact ⟨_, List.mem_cons_self, hl, hlen, fun a ha => hs.least a ha b hb⟩
    · obtain ⟨top, htop, h⟩ := ih hb
      exact ⟨top, List.mem_cons_of_mem _ htop, h⟩

/-- A full list before `b` leaves no room in the top for what comes after `b`. -/
theorem Selection.isLE_of_full [Std.TransCmp order] (h : Selection r order es top rest)
    {c : List (Key × Document)}
    (hc : c.Sublist es) (hl : r.limit ≠ 0) (hlen : r.limit.toNat ≤ c.length) {b : Key × Document}
    (hb : ∀ a ∈ c, (order a.1 b.1).isLE) {a : Key × Document} (ha : a ∈ top) :
    (order a.1 b.1).isLE := by
  by_cases hab : (order a.1 b.1).isLE = true
  · exact hab
  exfalso
  -- all of `c` comes strictly before `a`, the rest does not, and `a` itself takes a place
  have hba : order b.1 a.1 = .lt := by
    have hswap : order b.1 a.1 = (order a.1 b.1).swap := Std.OrientedCmp.eq_swap
    rw [hswap]
    cases hcmp : order a.1 b.1 <;> simp [hcmp] at hab ⊢
  let p : Key × Document → Bool := fun e => order e.1 a.1 == .lt
  have hall : c.countP p = c.length := by
    apply List.countP_eq_length.2
    intro e he
    simpa [p] using Std.TransCmp.lt_of_isLE_of_lt (hb e he) hba
  have hrest : rest.countP p = 0 := by
    apply List.countP_eq_zero.2
    intro e he hlt
    have hle := h.least a ha e he
    have hgt : order a.1 e.1 = .gt := Std.OrientedCmp.gt_of_lt (by simpa [p] using hlt)
    rw [hgt] at hle
    cases hle
  have htop : top.countP p < top.length := by
    apply Nat.lt_of_le_of_ne List.countP_le_length
    intro heq
    have hself : order a.1 a.1 = .eq := Std.ReflCmp.compare_self
    have := List.countP_eq_length.1 heq a ha
    simp [p, hself] at this
  have hsub : c.countP p ≤ es.countP p := hc.countP_le
  rw [h.perm.countP_eq, List.countP_append, hrest] at hsub
  have := h.bounded hl
  omega

/-- **Cutting off early loses nothing.**  A selection from the tops of some lists is one from all
their entries. -/
theorem Selection.join [Std.TransCmp order] (h : Selection r order tops.flatten top rest)
    (hs : Selections r order parts tops rests) :
    Selection r order parts.flatten top (rest ++ rests) := by
  refine ⟨?_, h.sorted, ?_, ?_, h.bounded⟩
  · rw [← List.append_assoc]
    exact hs.perm.trans (h.perm.append_right _)
  · intro a ha b hb
    rcases List.mem_append.1 hb with hb | hb
    · exact h.least a ha b hb
    · obtain ⟨c, hc, hl, hlen, hle⟩ := hs.full hb
      exact h.isLE_of_full (List.sublist_flatten_of_mem hc) hl hlen hle ha
  · intro hne
    by_cases hrest : rest = []
    · obtain ⟨b, hb⟩ := List.exists_mem_of_ne_nil _ hne
      rw [hrest, List.nil_append] at hb
      obtain ⟨c, hc, hl, hlen, -⟩ := hs.full hb
      have hsub := (List.sublist_flatten_of_mem hc).length_le
      rw [h.perm.length_eq, hrest, List.append_nil] at hsub
      exact ⟨hl, by omega⟩
    · exact h.full hrest

/-! ## One selection at most -/

theorem Selection.length_top (h : Selection r order es top rest) :
    top.length = if r.limit = 0 then es.length else min r.limit.toNat es.length := by
  have hlen := h.perm.length_eq
  rw [List.length_append] at hlen
  by_cases hrest : rest = []
  · rw [hrest, List.length_nil] at hlen
    by_cases hl : r.limit = 0
    · rw [if_pos hl]
      omega
    · rw [if_neg hl]
      have := h.bounded hl
      omega
  · obtain ⟨hl, hle⟩ := h.full hrest
    rw [if_neg hl]
    have := h.bounded hl
    omega

/-- The entries in the order of the top, with the rest in order behind it. -/
theorem Selection.sorted_append [Std.TransCmp order] (h : Selection r order es top rest) :
    (top ++ sortEntries order rest).Pairwise fun a b => (order a.1 b.1).isLE := by
  refine List.pairwise_append.2 ⟨h.sorted, sortEntries_sorted order rest, ?_⟩
  intro a ha b hb
  exact h.least a ha b ((sortEntries_perm order rest).mem_iff.1 hb)

/-- Where different entries never tie, two selections from the same entries have the same top. -/
theorem Selection.unique [Std.TransCmp order] (h : Selection r order es top rest)
    (h' : Selection r order es' top' rest') (hp : es'.Perm es)
    (hties : ∀ a ∈ es, ∀ b ∈ es, order a.1 b.1 = .eq → a = b) : top' = top := by
  have hsort := h.perm.trans ((sortEntries_perm order rest).symm.append_left top)
  have hsort' :=
    (hp.symm.trans h'.perm).trans ((sortEntries_perm order rest').symm.append_left top')
  have hlen : top'.length = top.length := by rw [h.length_top, h'.length_top, hp.length_eq]
  have heq : top' ++ sortEntries order rest' = top ++ sortEntries order rest := by
    refine List.Perm.eq_of_pairwise ?_ h'.sorted_append h.sorted_append
      (hsort'.symm.trans hsort)
    intro a b ha hb hab hba
    exact hties a (hsort'.mem_iff.2 ha) b (hsort.mem_iff.2 hb)
      (Std.OrientedCmp.isLE_antisymm hab hba)
  exact (List.append_inj heq hlen).1

end BucketCluster.KeyRange
