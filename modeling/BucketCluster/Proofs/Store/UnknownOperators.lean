import BucketCluster.Operators.Builtin
import BucketCluster.Proofs.Store.Apply

/-!
# Unknown operators

A command that names an operator which is not registered fails with an error that
says so, and with the same one on every store that has the registry
(`unknown_operator_reported`).  The function of an update is the exception: it is
looked up in the bucket, and where there is no such bucket the missing key is
reported instead.
-/

namespace BucketCluster

/-- The first operator that an operation names and the registry lacks, as the error that
reports it. -/
inductive Operators.Lacks (ops : Operators) : Operation → StoreError → Prop
  | condition {op : Operation} {p : Predicate} (hp : op.predicate? = some p)
      (h : ops.conditions.get? p.condition = none) : Lacks ops op
        (.unsatisfiableCondition p.condition)
  | comparator {b : String} {r : KeyRange} {p : Option Predicate}
      (hp : ∀ q, p = some q → (ops.conditions.get? q.condition).isSome = true)
      (h : ops.comparators.get? r.comparatorName = none) :
      Lacks ops (.rangeQuery b r p) (.unknownComparator r.comparatorName)
  | function {b : String} {k : Key} {u : Update} (h : ops.functions.get? u.function = none) :
      Lacks ops (.updateValue b k u) (.unknownFunction u.function)

namespace Store

variable {s : Store} {c : Command} {e : StoreError}

/-! ## Looking operators up -/

theorem filter_of_unregistered {ops : Operators} {p : Predicate}
    (h : ops.conditions.get? p.condition = none) :
    ops.filter (some p) = .error (.unsatisfiableCondition p.condition) := by
  rw [Operators.filter, Operators.condition, h]
  rfl

theorem filter_of_registered {ops : Operators} {p : Option Predicate}
    (h : ∀ q, p = some q → (ops.conditions.get? q.condition).isSome = true) :
    ∃ f, ops.filter p = .ok f := by
  cases p with
  | none => exact ⟨.all, rfl⟩
  | some q =>
    obtain ⟨condition, hcondition⟩ := Option.isSome_iff_exists.1 (h q rfl)
    exact ⟨condition.filter
      q.expression, by rw [Operators.filter, Operators.condition, hcondition]; rfl⟩

/-- The function of an update is looked up in the bucket, before the key is. -/
theorem perform_update_of_unregistered {b : String} {k : Key} {u : Update}
    (h : s.operators.functions.get? u.function = none) (hb : s.hasBucket b = true) :
    s.perform (.updateValue b k u) = (.error (.unknownFunction u.function), s) := by
  obtain ⟨ds, hds⟩ := Option.isSome_iff_exists.1 (show (s.buckets.get? b).isSome = true from hb)
  simp only [perform, tryUpdate, hds, Operators.function, h]
  rfl

theorem perform_update_of_missing {b : String} {k : Key} {u : Update} (hb : s.hasBucket b = false) :
    s.perform (.updateValue b k u) = (.error (.keyNotFound b k.shown), s) := by
  have hnone : s.buckets.get? b = none :=
    Option.isSome_eq_false_iff.1 hb |> Option.isNone_iff_eq_none.1
  simp only [perform, tryUpdate, hnone]
  rfl

/-! ## All commands -/

/-- **Unknown operators are reported.**  Whatever buckets and keys a store with the registry
has, a command that names an operator it lacks fails with the error that says so, and
changes nothing; only an update of a bucket that does not exist says that the key was not
found. -/
theorem unknown_operator_reported {ops : Operators} (h : ops.Lacks c.operation e) (s : Store)
    (hs : s.operators = ops) :
    ((∀ b k u, c.operation = .updateValue b k u → s.hasBucket b = true) →
        s.apply c = (.error e, s)) ∧
      ∀ b k u, c.operation = .updateValue b k u → s.hasBucket b = false →
        s.apply c = (.error (.keyNotFound b k.shown), s) := by
  subst hs
  obtain ⟨id, op⟩ := c
  refine ⟨?_, ?_⟩
  · intro hbucket
    cases h with
    | condition hp hnone =>
      apply apply_of_check
      simp only [checkOperators, hp, filter_of_unregistered hnone]
      rfl
    | comparator hp hnone =>
      obtain ⟨f, hf⟩ := filter_of_registered hp
      apply apply_of_check
      simp only [checkOperators, Operation.predicate?, hf, Operators.comparator, hnone]
      rfl
    | function hnone => exact perform_update_of_unregistered hnone (hbucket _ _ _ rfl)
  · rintro b k u rfl hb
    exact perform_update_of_missing hb

/-- The built-in operators, and one bucket. -/
def onlyBucket : Store :=
  ⟨SortedMap.ofList [("a", SortedMap.ofList [(⟨[107]⟩, ⟨[2]⟩)])], Operators.builtin,
    .absent "/backups"⟩

/-- An update by a function that nobody has registered. -/
def nopeUpdate (b : String) : Command := ⟨"", .updateValue b ⟨[107]⟩ ⟨"nope", 1000, ∅⟩⟩

theorem lacks_nopeUpdate (b : String) :
    Operators.builtin.Lacks (nopeUpdate b).operation (.unknownFunction "nope") :=
  .function (by decide +kernel)

theorem unknown_operator_reported_nope :
    onlyBucket.apply (nopeUpdate "a") = (.error (.unknownFunction "nope"), onlyBucket) ∧
      onlyBucket.apply (nopeUpdate "b") = (.error (.keyNotFound "b" "k"), onlyBucket) := by
  have ha : ∀ b k u, (nopeUpdate "a").operation = .updateValue b k u →
      onlyBucket.hasBucket b = true := by
    rintro b k u h
    cases h
    decide +kernel
  refine ⟨(unknown_operator_reported (lacks_nopeUpdate "a") onlyBucket rfl).1 ha, ?_⟩
  exact (unknown_operator_reported (lacks_nopeUpdate "b") onlyBucket rfl).2 "b"
    ⟨[107]⟩ _ rfl (by decide +kernel)

/-- The missing bucket hides the function that is missing as well. -/
theorem missing_bucket_hides_function :
    Operators.builtin.Lacks (nopeUpdate "b").operation (.unknownFunction "nope") ∧
      onlyBucket.operators = Operators.builtin ∧
      (onlyBucket.apply (nopeUpdate "b")).1 = .error (.keyNotFound "b" "k") ∧
      (onlyBucket.apply (nopeUpdate "b")).1 ≠ .error (.unknownFunction "nope") :=
  ⟨lacks_nopeUpdate "b", rfl, by decide +kernel, by decide +kernel⟩

end Store

end BucketCluster
