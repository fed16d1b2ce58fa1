import BucketCluster.Proofs.Operators.Builtin
import BucketCluster.Proofs.Store.Apply

/-!
# Merges into one document

A merge reads the stored object, sets its parameters as members, and writes the object anew.
What it writes is read back as it is (`Document.Spells`), so merges that come one after the
other are one merge of all their parameters, of which later ones go before earlier ones of the
same name (`applyAll_patches`).  Where no two of them set the same name, any order will do
(`joined_perm`).
-/

namespace BucketCluster

/-- The document spells the object, and all numbers in it are integers. -/
structure Document.Spells (d : Document) (m : SortedMap String Json) : Prop where
  toJson : d.toJson = .ok (.object m.entries)
  whole : (Json.object m.entries).Whole

/-- The members of an object that is read are sorted. -/
theorem Document.exists_spells {d : Document} {ms : List (String × Json)}
    (h : d.toJson = .ok (.object ms)) (hwhole : (Json.object ms).Whole) : ∃ m :
    SortedMap String Json, m.entries = ms ∧ d.Spells m := by
  cases Json.stored_of_parse h with
  | object hsorted _ => exact ⟨⟨ms, hsorted⟩, rfl, h, hwhole⟩

/-! ## Several sets of parameters -/

namespace Parameters

/-- The two have no name in common. -/
def Apart (ps qs : Parameters) : Prop := ∀ name, ps.contains name = true → qs.contains name = false

theorem Apart.symm {ps qs : Parameters} (h : Apart ps qs) : Apart qs ps := by
  intro name hqs
  by_contra hps
  rw [h name (Bool.not_eq_false _ ▸ hps)] at hqs
  cases hqs

/-- All parameters in one; later ones go before earlier ones. -/
def joined : List Parameters → Parameters
  | [] => ∅
  | ps :: pss => ps.insertAll (joined pss).entries

/-- Sets of parameters that are apart keep all of them. -/
theorem get?_joined {pss : List Parameters} (h : pss.Pairwise Apart) {name text : String} :
    (joined pss).get? name = some text ↔ ∃ ps ∈ pss, ps.get? name = some text := by
  induction pss generalizing text with
  | nil => simp [joined]
  | cons ps pss ih =>
    obtain ⟨hapart, hpss⟩ := List.pairwise_cons.1 h
    rw [joined, SortedMap.get?_insertAll_entries, List.exists_mem_cons_iff, ← ih hpss]
    cases hjoined : (joined pss).get? name with
    | none => simp
    | some later =>
      -- one of the later ones has the name, so the first one has not
      obtain ⟨qs, hqs, hget⟩ : ∃ qs ∈ pss, qs.get? name = some later := (ih hpss).1 hjoined
      have hname : ps.contains name = false := by
        refine (hapart qs hqs).symm name ?_
        rw [SortedMap.contains, hget]
        rfl
      rw [SortedMap.contains, Option.isSome_eq_false_iff, Option.isNone_iff_eq_none] at hname
      simp [hname]

theorem get?_joined_eq_none {pss : List Parameters} {name : String}
    (h : ∀ ps ∈ pss, ps.contains name = false) : (joined pss).get? name = none := by
  induction pss with
  | nil => rfl
  | cons ps pss ih =>
    obtain ⟨hps, hpss⟩ := List.forall_mem_cons.1 h
    rw [SortedMap.contains, Option.isSome_eq_false_iff, Option.isNone_iff_eq_none] at hps
    rw [joined, SortedMap.get?_insertAll_entries, ih hpss, hps]
    rfl

theorem joined_perm {pss qss : List Parameters} (hp : pss.Perm qss) (h : pss.Pairwise Apart) :
    joined pss = joined qss := by
  refine SortedMap.ext_get? fun name => Option.ext fun text => ?_
  rw [get?_joined h, get?_joined (hp.pairwise h Apart.symm)]
  simp only [hp.mem_iff]

end Parameters

namespace Operators

/-- The document of an object in which the parameters are set. -/
def merged (m : SortedMap String Json) (ps : Parameters) : Document :=
  .ofJson (.object (m.insertAll (members ps)).entries)

theorem spells_merged {d : Document} {m : SortedMap String Json} (h : d.Spells m)
    (ps : Parameters) : (merged m ps).Spells (m.insertAll (members ps)) where
  toJson :=
    Document.toJson_ofJson (stored_insertAll (Json.stored_of_parse h.toJson) ps)
      (whole_insertAll h.whole ps)
  whole := whole_insertAll h.whole ps

theorem merged_merged (m : SortedMap String Json) (ps qs : Parameters) :
    merged (m.insertAll (members ps)) qs = merged m (ps.insertAll qs.entries) := by
  rw [merged, insertAll_members_members]
  rfl

/-- What is no object cannot be merged into. -/
theorem mergeDocument_of_no_object {d : Document} (h : ∀ ms, d.toJson ≠ .ok (.object ms)) :
    ∃ reason, ∀ ps deadline, mergeDocument d ps deadline = .error (.malformed reason) := by
  unfold mergeDocument
  split
  · exact ⟨_, fun _ _ => rfl⟩
  · next ms hobject => exact absurd hobject (h ms)
  · exact ⟨_, fun _ _ => rfl⟩

/-- What `merge` stands for. -/
theorem builtin_merge : ∃ g, builtin.functions.get? "merge" = some g ∧
    (∀ k d ps deadline, g.run k d ps deadline = mergeDocument d ps deadline) ∧
    (∀ k d ps, g.crashes k d ps = false) ∧ ∀ k d u, g.deadline k d u = u.deadline :=
  ⟨_, SortedMap.get?_insert_self _ _ _, fun _ _ _ _ => rfl, fun _ _ _ => rfl, fun _ _ _ => rfl⟩

end Operators

/-! ## Patches -/

/-- A merge that has time enough. -/
structure Patch where
  id : String
  milliseconds : UInt64
  parameters : Parameters
  inTime : milliseconds ≠ 0

namespace Patch

def update (p : Patch) : Update := ⟨"merge", p.milliseconds, p.parameters⟩

/-- The command that merges into the document of the key. -/
def command (p : Patch) (b : String) (k : Key) : Command := ⟨p.id, .updateValue b k p.update⟩

theorem deadline_update (p : Patch) : p.update.deadline = .never := Update.deadline_of_ne p.inTime

end Patch

namespace Store

variable {s : Store} {b : String} {k : Key} {d : Document} {m : SortedMap String Json}

/-- The name stands for the built-in function. -/
def HasBuiltin (s : Store) (function : String) : Prop :=
    s.operators.functions.get? function = Operators.builtin.functions.get? function

/-- The store can merge into the document of the key, which spells the object. -/
structure Mergeable (s : Store) (b : String) (k : Key) (d : Document) (m : SortedMap String Json) :
    Prop where
  builtin : s.HasBuiltin "merge"
  stored : (s.contents b).get? k = some d
  spells : d.Spells m

/-- The document after the merges of all these parameters. -/
def patched (d : Document) (m : SortedMap String Json) : List Parameters → Document
  | [] => d
  | pss => Operators.merged m (Parameters.joined pss)

theorem Mergeable.merged (h : s.Mergeable b k d m) (ps : Parameters) :
    (s.store b k (Operators.merged m ps)).Mergeable b k (Operators.merged m ps)
      (m.insertAll (Operators.members ps)) where
  builtin := h.builtin
  stored := get?_store_self s b k _
  spells := Operators.spells_merged h.spells ps

/-- A merge sets its parameters and answers with the new document. -/
theorem Mergeable.apply (h : s.Mergeable b k d m) (p : Patch) :
    s.apply (p.command b k) =
      (.ok (.value (some (Operators.merged m p.parameters))),
        s.store b k (Operators.merged m p.parameters)) := by
  obtain ⟨g, hg, hrun, -, htime⟩ := Operators.builtin_merge
  have hnever := (htime k d p.update).trans p.deadline_update
  refine apply_of_run p.id (h.builtin.trans hg) h.stored ?_ hnever
  rw [hrun, Operators.mergeDocument_of_object h.spells.toJson, hnever]
  rfl

/-- **Merges add up.**  Merges that come one after the other all succeed, and are one merge
of all their parameters. -/
theorem applyAll_patches (h : s.Mergeable b k d m) (ps : List Patch) :
    (s.applyAll (ps.map (·.command b k))).2 = s.store b k (patched d m (ps.map (·.parameters))) ∧
      ∀ a ∈ (s.applyAll (ps.map (·.command b k))).1, ∃ d', a = .ok (.value (some d')) := by
  induction ps generalizing s d m with
  | nil => exact ⟨(store_of_get? h.stored).symm, nofun⟩
  | cons p ps ih =>
    obtain ⟨hstore, hanswers⟩ := ih (h.merged p.parameters)
    simp only [List.map_cons, applyAll, h.apply p]
    refine ⟨?_, List.forall_mem_cons.2 ⟨⟨_, rfl⟩, hanswers⟩⟩
    rw [hstore, store_store]
    cases ps with
    | nil => rfl
    | cons q qs => exact congrArg (s.store b k) (Operators.merged_merged m _ _)

theorem spells_patched (h : d.Spells m) (pss : List Parameters) :
    (patched d m pss).Spells (m.insertAll (Operators.members (Parameters.joined pss))) := by
  cases pss with
  | nil => exact h
  | cons ps pss => exact Operators.spells_merged h _

theorem patched_perm {pss qss : List Parameters} (hp : pss.Perm qss)
    (h : pss.Pairwise Parameters.Apart) : patched d m pss = patched d m qss := by
  cases pss with
  | nil => rw [hp.nil_eq]
  | cons ps pss =>
    cases qss with
    | nil => cases hp.eq_nil
    | cons qs qss => exact congrArg (Operators.merged m) (Parameters.joined_perm hp h)

/-- A merge into what is no object fails, however much time it has. -/
theorem apply_merge_of_no_object (hmerge : s.HasBuiltin "merge")
    (hd : (s.contents b).get? k = some d) (hno : ∀ ms, d.toJson ≠ .ok (.object ms)) :
    ∃ reason, ∀ id milliseconds ps,
      s.apply ⟨id, .updateValue b k ⟨"merge", milliseconds, ps⟩⟩ =
        (.error (.malformed reason), s) := by
  obtain ⟨reason, hreason⟩ := Operators.mergeDocument_of_no_object hno
  obtain ⟨g, hg, hrun, -⟩ := Operators.builtin_merge
  refine ⟨reason, fun id milliseconds ps => apply_of_run_error id (hmerge.trans hg) hd ?_⟩
  rw [hrun]
  exact hreason ps _

end Store

end BucketCluster
