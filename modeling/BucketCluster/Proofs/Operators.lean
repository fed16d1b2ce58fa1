import BucketCluster.Operators.Builtin

/-!
# Comparators on keys they tell apart

A comparator separates some keys if on them it is a total order that ties no two
different ones.  Byte order separates all keys.  The numeric comparator does so for
keys of which no two different ones are equal as numbers: a key that spells no number
in that order, such as `nan`, is then the only one that spells anything, and the others
compare as `numericRank` says.
-/

namespace BucketCluster

namespace Comparator

/-- On these keys the comparator is a total order without ties. -/
def Separates (order : Comparator) (ks : List Key) : Prop :=
  ∃ total : Comparator, Std.TransCmp total ∧ (∀ a ∈ ks, ∀ b ∈ ks, order a b = total a b) ∧
    ∀ a ∈ ks, ∀ b ∈ ks, total a b = .eq → a = b

end Comparator

namespace Operators

theorem lexicalOrder_separates (ks : List Key) : Comparator.Separates lexicalOrder ks :=
  ⟨compare, inferInstance, fun _ _ _ _ => rfl, fun _ _ _ _ h => Std.LawfulEqCmp.eq_of_compare h⟩

/-! ## Numbers -/

/-- What a key spells, the number if it is one, and the bytes of a key that spells none. -/
def rankOf : Option Number.Reading → Bytes → Nat × Int × Bytes
  | some .nan, _ => (0, 0, [])
  | some (.number x), _ => (1, x.rank, [])
  | none, bs => (2, 0, bs)

def numericRank (k : Key) : Nat × Int × Bytes := rankOf (Number.read? k.bytes) k.bytes

/-- The order of the ranks, part by part. -/
def rankedOrder : Comparator := compareLex (compareOn fun k => (numericRank k).1)
  (compareLex (compareOn fun k => (numericRank k).2.1) (compareOn fun k => (numericRank k).2.2))

instance : Std.TransCmp rankedOrder := inferInstanceAs (Std.TransCmp (compareLex _ _))

theorem rankedOrder_eq (a b : Key) : rankedOrder a b =
    (compare (rankOf (Number.read? a.bytes) a.bytes).1
        (rankOf (Number.read? b.bytes) b.bytes).1).then
      ((compare (rankOf (Number.read? a.bytes) a.bytes).2.1
          (rankOf (Number.read? b.bytes) b.bytes).2.1).then
        (compare (rankOf (Number.read? a.bytes) a.bytes).2.2
          (rankOf (Number.read? b.bytes) b.bytes).2.2)) := rfl

/-- The comparator ties what is no number in order with every number; apart from that it is
the order of the ranks. -/
theorem numericOrder_eq_ranked {a b : Key} (h : numericOrder a b = .eq → a = b) :
    numericOrder a b = rankedOrder a b := by
  by_cases hab : a = b
  · have hself : rankedOrder b b = .eq := Std.ReflCmp.compare_self
    rw [hab, hself]
    unfold numericOrder
    cases Number.read? b.bytes with
    | none =>
      show compare b b = .eq
      exact Std.ReflOrd.compare_self
    | some y =>
      cases y with
      | nan => rfl
      | number y =>
        show compare y.rank y.rank = .eq
        exact Std.ReflOrd.compare_self
  · have hne : numericOrder a b ≠ .eq := fun heq => hab (h heq)
    unfold numericOrder at hne ⊢
    rw [rankedOrder_eq]
    generalize Number.read? a.bytes = ra at hne ⊢
    generalize Number.read? b.bytes = rb at hne ⊢
    rcases ra with _ | _ | x <;> rcases rb with _ | _ | y
    case some.nan.some.nan | some.nan.some.number | some.number.some.nan => exact absurd rfl hne
    case some.number.some.number =>
      show compare x.rank y.rank = (compare x.rank y.rank).then .eq
      cases compare x.rank y.rank <;> rfl
    all_goals rfl

theorem numericOrder_separates {ks : List Key}
    (h : ∀ a ∈ ks, ∀ b ∈ ks, numericOrder a b = .eq → a = b) :
    Comparator.Separates numericOrder ks := by
  have hranked : ∀ a ∈ ks, ∀ b ∈ ks, numericOrder a b = rankedOrder a b :=
    fun a ha b hb => numericOrder_eq_ranked (h a ha b hb)
  exact ⟨rankedOrder, inferInstance, hranked,
    fun a ha b hb heq => h a ha b hb ((hranked a ha b hb).trans heq)⟩

end Operators

end BucketCluster
