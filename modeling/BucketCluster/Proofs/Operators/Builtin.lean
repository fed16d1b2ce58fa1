import BucketCluster.Operators.Builtin
import BucketCluster.Proofs.Json.Value

/-!
# What the built-in functions make of a document

Both functions write an object that has the parameters among its members: `replace` has no
others, `merge` keeps those of the stored object under them.  A document that one of them
has made is left as it is when the same parameters come again (`builtin_again`).

For `merge` this takes that the members it keeps are read back from the text it has written,
which holds of whole numbers (`Json.parse_write`).
-/

namespace BucketCluster

theorem Document.toJson_ofJson {j : Json} (h : Json.Stored Json.maxDepth j) (hwhole : j.Whole) :
    (Document.ofJson j).toJson = .ok j :=
  Json.parse_write h hwhole

theorem Update.deadline_of_ne {u : Update} (h : u.milliseconds ≠ 0) : u.deadline = .never := by
  rw [Update.deadline, beq_false_of_ne h]
  rfl

/-- One of the first looks finds the time over. -/
def Deadline.overWithin (d : Deadline) (looks : Nat) : Bool := d.looks.any (· < looks)

theorem Deadline.overWithin_succ (d : Deadline) (n : Nat) :
    d.overWithin (n + 1) = (d.expired || d.next.overWithin n) := by
  obtain ⟨_ | looks⟩ := d
  · rfl
  · cases looks with
    | zero => rfl
    | succ looks => simp [overWithin, expired, next]

namespace Operators

variable {d d' : Document} {ps : Parameters} {deadline : Deadline}

/-- The parameters as members of an object. -/
def members (ps : Parameters) : List (String × Json) := ps.entries.map fun p => (p.1, .string p.2)

theorem string_of_mem_members {m : String × Json} (h : m ∈ members ps) :
    ∃ text, m.2 = .string text := by
  obtain ⟨p, -, rfl⟩ := List.mem_map.1 h
  exact ⟨p.2, rfl⟩

/-! ## Objects with more members -/

/-- A parameter goes before a member of its name. -/
theorem get?_insertAll_members (m : SortedMap String Json) (ps : Parameters) (name : String) :
    (m.insertAll (members ps)).get? name = ((ps.get? name).map .string).or (m.get? name) := by
  have hmembers : members ps = (ps.map fun _ text => Json.string text).entries := rfl
  rw [hmembers, SortedMap.get?_insertAll_entries, SortedMap.get?_map]

/-- Later parameters go before earlier ones. -/
theorem insertAll_members_members (m : SortedMap String Json) (ps qs : Parameters) :
    (m.insertAll (members ps)).insertAll (members qs) =
      m.insertAll (members (ps.insertAll qs.entries)) := by
  refine SortedMap.ext_get? fun name => ?_
  rw [get?_insertAll_members, get?_insertAll_members, get?_insertAll_members,
    SortedMap.get?_insertAll_entries, ← Option.or_assoc]
  cases qs.get? name <;> rfl

theorem stored_insertAll {depth : Nat} {m : SortedMap String Json}
    (h : Json.Stored depth (.object m.entries)) (ps : Parameters) :
    Json.Stored depth (.object (m.insertAll (members ps)).entries) := by
  cases h with
  | object _ hmembers =>
    refine .object (m.insertAll (members ps)).sorted fun e he => ?_
    rcases SortedMap.mem_insertAll he with he | he
    · obtain ⟨text, htext⟩ := string_of_mem_members he
      rw [htext]
      exact .string _ _
    · exact hmembers e he

theorem whole_insertAll {m : SortedMap String Json} (h : (Json.object m.entries).Whole)
    (ps : Parameters) : (Json.object (m.insertAll (members ps)).entries).Whole := by
  cases h with
  | object hmembers =>
    refine .object fun e he => ?_
    rcases SortedMap.mem_insertAll he with he | he
    · obtain ⟨text, htext⟩ := string_of_mem_members he
      rw [htext]
      exact .string _
    · exact hmembers e he

/-! ## Merging -/

/-- There is a look at the clock before each member. -/
theorem mergeMembers_eq (deadline : Deadline) (ps : List (String × String))
    (m : SortedMap String Json) : mergeMembers deadline ps m.entries =
      if deadline.overWithin ps.length then .error (.timeout "merge")
      else .ok (m.insertAll (ps.map fun p => (p.1, .string p.2))).entries := by
  induction ps generalizing deadline m with
  | nil =>
    cases h : deadline.looks <;> simp [mergeMembers, SortedMap.insertAll, Deadline.overWithin, h]
  | cons p ps ih =>
    rw [mergeMembers, Deadline.check, List.map_cons, SortedMap.insertAll_cons, List.length_cons,
      Deadline.overWithin_succ]
    cases deadline.expired with
    | true => rfl
    | false => exact ih deadline.next (m.insert p.1 (.string p.2))

theorem mergeDocument_of_object {m : SortedMap String Json} (h : d.toJson = .ok (.object m.entries))
    (ps : Parameters) (deadline : Deadline) :
    mergeDocument d ps deadline =
      if deadline.overWithin ps.size then .error (.timeout "merge")
      else .ok (.ofJson (.object (m.insertAll (members ps)).entries)) := by
  rw [mergeDocument, h]
  simp only
  rw [mergeMembers_eq]
  unfold SortedMap.size
  split <;> rfl

/-- A merge that succeeds has found an object. -/
theorem object_of_mergeDocument (h : mergeDocument d ps deadline = .ok d') :
    ∃ m : SortedMap String Json, d.toJson = .ok (.object m.entries) := by
  unfold mergeDocument at h
  split at h
  · cases h
  · next ms hj =>
    cases Json.stored_of_parse hj with
    | object hsorted _ => exact ⟨⟨ms, hsorted⟩, hj⟩
  · cases h

/-- Merging the same parameters again changes nothing. -/
theorem mergeDocument_again (hwhole : ∀ j, d.toJson = .ok j → j.Whole)
    (h : mergeDocument d ps deadline = .ok d') : mergeDocument d' ps deadline = .ok d' := by
  obtain ⟨m, hm⟩ := object_of_mergeDocument h
  rw [mergeDocument_of_object hm] at h
  split at h
  · cases h
  · next hdeadline =>
    cases h
    have hread : (Document.ofJson (.object (m.insertAll (members ps)).entries)).toJson =
        .ok (.object (m.insertAll (members ps)).entries) :=
      Document.toJson_ofJson (stored_insertAll (Json.stored_of_parse hm) ps)
        (whole_insertAll (hwhole _ hm) ps)
    rw [mergeDocument_of_object hread, if_neg hdeadline, SortedMap.insertAll_insertAll]

/-! ## The registry -/

/-- There are no other functions, and these take no time. -/
theorem builtin_functions {name : String} {g : UpdateFunction}
    (h : builtin.functions.get? name = some g) :
    ((∀ k d ps deadline, g.run k d ps deadline = replaceDocument ps deadline) ∨
      ∀ k d ps deadline, g.run k d ps deadline = mergeDocument d ps deadline) ∧
    ∀ k d u, g.deadline k d u = u.deadline := by
  unfold builtin withFunction at h
  simp only [SortedMap.get?_insert] at h
  split at h
  · cases h
    exact ⟨.inr fun _ _ _ _ => rfl, fun _ _ _ => rfl⟩
  · split at h
    · cases h
      exact ⟨.inl fun _ _ _ _ => rfl, fun _ _ _ => rfl⟩
    · cases h

/-- **A document that a built-in function has made stays the same under the same parameters.** -/
theorem builtin_again {name : String} {g : UpdateFunction}
    (hg : builtin.functions.get? name = some g) {k : Key} (hwhole : ∀ j, d.toJson = .ok j → j.Whole)
    (h : g.run k d ps deadline = .ok d') :
    g.run k d' ps deadline = .ok d' := by
  rcases (builtin_functions hg).1 with hreplace | hmerge
  · rw [hreplace] at h ⊢
    exact h
  · rw [hmerge] at h ⊢
    exact mergeDocument_again hwhole h

end Operators

end BucketCluster
