import BucketCluster.Proofs.Operators

/-!
# The numeric comparator as an order

Among the keys that do not spell `nan` the numeric comparator is the order of their ranks
(`numericOrder_eq_rankedOrder`): a total preorder, in which keys that tie compare alike with
every third one.  A key that spells `nan` ties with every number and stands before all
keys that spell none.  With such a key at either end the order is still transitive, and only
in the middle of two numbers it is not (`numericOrder_preorder`, `numericOrder_not_trans`).
-/

namespace BucketCluster.Operators

/-- A key that is read as a number, but as one that is in no order. -/
def Unordered (k : Key) : Prop := Number.read? k.bytes = some .nan

instance (k : Key) : Decidable (Unordered k) := inferInstanceAs (Decidable (_ = _))

/-- A key that is read as a number at all. -/
def IsNumeric (k : Key) : Prop := (Number.read? k.bytes).isSome = true

variable {a b c : Key}

theorem Unordered.isNumeric (h : Unordered a) : IsNumeric a := by
  unfold IsNumeric
  rw [h]
  rfl

/-- Without `nan` the comparator is the order of the ranks. -/
theorem numericOrder_eq_rankedOrder (ha : ¬Unordered a) (hb : ¬Unordered b) :
    numericOrder a b = rankedOrder a b := by
  unfold Unordered at ha hb
  rw [rankedOrder_eq]
  unfold numericOrder
  generalize Number.read? a.bytes = ra at ha ⊢
  generalize Number.read? b.bytes = rb at hb ⊢
  rcases ra with _ | _ | x <;> rcases rb with _ | _ | y
  case some.number.some.number =>
    show compare x.rank y.rank = (compare x.rank y.rank).then .eq
    cases compare x.rank y.rank <;> rfl
  all_goals first | rfl | exact absurd rfl ha | exact absurd rfl hb

/-- What is read as no number in order ties with every number. -/
theorem numericOrder_of_unordered (ha : Unordered a) (hc : IsNumeric c) :
    numericOrder a c = .eq := by
  unfold Unordered at ha
  unfold IsNumeric at hc
  unfold numericOrder
  rw [ha]
  generalize Number.read? c.bytes = rc at hc ⊢
  rcases rc with _ | _ | z
  · contradiction
  · rfl
  · rfl

/-- Numbers come before everything else. -/
theorem numericOrder_of_isNumeric (ha : IsNumeric a) (hc : ¬IsNumeric c) :
    numericOrder a c = .lt := by
  unfold IsNumeric at ha hc
  unfold numericOrder
  generalize Number.read? a.bytes = ra at ha ⊢
  generalize Number.read? c.bytes = rc at hc ⊢
  rcases ra with _ | _ | x <;> rcases rc with _ | z
  all_goals first | rfl | exact absurd rfl hc | contradiction

theorem numericOrder_swap (a b : Key) : numericOrder b a = (numericOrder a b).swap := by
  unfold numericOrder
  generalize Number.read? a.bytes = ra
  generalize Number.read? b.bytes = rb
  rcases ra with _ | _ | x <;> rcases rb with _ | _ | y
  case none.none =>
    show compare b a = (compare a b).swap
    exact Std.OrientedOrd.eq_swap
  case some.number.some.number =>
    show compare y.rank x.rank = (compare x.rank y.rank).swap
    exact Std.OrientedOrd.eq_swap
  all_goals rfl

theorem numericOrder_self (a : Key) : numericOrder a a = .eq := by
  by_cases ha : Unordered a
  · exact numericOrder_of_unordered ha ha.isNumeric
  · rw [numericOrder_eq_rankedOrder ha ha]
    exact Std.ReflCmp.compare_self

/-- What comes before a number is one. -/
theorem isNumeric_of_isLE (hab : (numericOrder a b).isLE) (hb : IsNumeric b) : IsNumeric a := by
  by_cases ha : IsNumeric a
  · exact ha
  · have hgt : numericOrder a b = .gt := by
      rw [numericOrder_swap b a, numericOrder_of_isNumeric hb ha]
      rfl
    rw [hgt] at hab
    contradiction

/-- The keys of a tie are both numbers or both none. -/
theorem isNumeric_iff_of_eq (hab : numericOrder a b = .eq) : IsNumeric a ↔ IsNumeric b := by
  constructor
  · have hba : numericOrder b a = .eq := by rw [numericOrder_swap, hab]; rfl
    exact isNumeric_of_isLE (by rw [hba]; rfl)
  · exact isNumeric_of_isLE (by rw [hab]; rfl)

/-- Nothing comes before what is read as no number in order. -/
theorem isLE_of_unordered (ha : Unordered a) (c : Key) : (numericOrder a c).isLE := by
  by_cases hc : IsNumeric c
  · rw [numericOrder_of_unordered ha hc]
    rfl
  · rw [numericOrder_of_isNumeric ha.isNumeric hc]
    rfl

theorem numericOrder_trans (hb : ¬Unordered b) (hab : (numericOrder a b).isLE)
    (hbc : (numericOrder b c).isLE) : (numericOrder a c).isLE := by
  by_cases ha : Unordered a
  · exact isLE_of_unordered ha c
  · by_cases hc : Unordered c
    · -- then all three are numbers, and the first one ties with the last
      have hnumeric := isNumeric_of_isLE hab (isNumeric_of_isLE hbc hc.isNumeric)
      rw [numericOrder_swap c a, numericOrder_of_unordered hc hnumeric]
      rfl
    · rw [numericOrder_eq_rankedOrder ha hb] at hab
      rw [numericOrder_eq_rankedOrder hb hc] at hbc
      rw [numericOrder_eq_rankedOrder ha hc]
      exact Std.TransCmp.isLE_trans hab hbc

/-- Keys that tie compare alike with every third one. -/
theorem numericOrder_congr (ha : ¬Unordered a) (hb : ¬Unordered b) (hab : numericOrder a b = .eq)
    (c : Key) : numericOrder a c = numericOrder b c := by
  by_cases hc : Unordered c
  · rw [numericOrder_swap c a, numericOrder_swap c b]
    by_cases hnumeric : IsNumeric a
    · rw [numericOrder_of_unordered hc hnumeric,
        numericOrder_of_unordered hc ((isNumeric_iff_of_eq hab).1 hnumeric)]
    · rw [numericOrder_of_isNumeric hc.isNumeric hnumeric,
        numericOrder_of_isNumeric hc.isNumeric (mt (isNumeric_iff_of_eq hab).2 hnumeric)]
  · rw [numericOrder_eq_rankedOrder ha hb] at hab
    rw [numericOrder_eq_rankedOrder ha hc, numericOrder_eq_rankedOrder hb hc]
    exact Std.TransCmp.congr_left hab

/-- **The numeric comparator is a total preorder around `nan`.**  For all keys: each ties
with itself, exchanging two reverses the comparison, the order is transitive wherever the
key in the middle does not spell `nan`, and of the keys that do not, those that tie compare
alike with every third one. -/
theorem numericOrder_preorder (a b c : Key) :
    numericOrder a a = .eq ∧ numericOrder b a = (numericOrder a b).swap ∧
    (¬Unordered b → (numericOrder a b).isLE → (numericOrder b c).isLE → (numericOrder a c).isLE) ∧
    (¬Unordered a → ¬Unordered b → numericOrder a b = .eq → numericOrder a c = numericOrder b c) :=
  ⟨numericOrder_self a, numericOrder_swap a b, numericOrder_trans,
    fun ha hb hab => numericOrder_congr ha hb hab c⟩

/-- The keys `1`, `1.0` and `x`: the first two tie, and both come before the third. -/
theorem numericOrder_preorder_ones : ¬Unordered ⟨[49]⟩ ∧ ¬Unordered ⟨[49, 46, 48]⟩ ∧
    numericOrder ⟨[49]⟩ ⟨[49, 46, 48]⟩ = .eq ∧ (numericOrder ⟨[49, 46, 48]⟩ ⟨[120]⟩).isLE ∧
    (numericOrder ⟨[49]⟩ ⟨[120]⟩).isLE ∧
    numericOrder ⟨[49]⟩ ⟨[120]⟩ = numericOrder ⟨[49, 46, 48]⟩ ⟨[120]⟩ := by
  have hone : ¬Unordered ⟨[49]⟩ := by decide +kernel
  have hpoint : ¬Unordered ⟨[49, 46, 48]⟩ := by decide +kernel
  have htie : numericOrder ⟨[49]⟩ ⟨[49, 46, 48]⟩ = .eq := by decide +kernel
  have hle : (numericOrder ⟨[49, 46, 48]⟩ ⟨[120]⟩).isLE := by decide +kernel
  obtain ⟨-, -, htrans, hcongr⟩ := numericOrder_preorder ⟨[49]⟩ ⟨[49, 46, 48]⟩ ⟨[120]⟩
  exact ⟨hone, hpoint, htie, hle, htrans hpoint (by rw [htie]; rfl) hle, hcongr hone hpoint htie⟩

/-- `nan` ties with `2` and with `1`, but `2` does not come before `1`. -/
theorem numericOrder_not_trans : numericOrder ⟨[50]⟩ ⟨[110, 97, 110]⟩ = .eq ∧
    numericOrder ⟨[110, 97, 110]⟩ ⟨[49]⟩ = .eq ∧ numericOrder ⟨[50]⟩ ⟨[49]⟩ = .gt := by
  decide +kernel

end BucketCluster.Operators
