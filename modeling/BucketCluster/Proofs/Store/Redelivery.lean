import BucketCluster.Proofs.Operators.Builtin
import BucketCluster.Proofs.Store.Failing

/-!
# Commands that come twice

A caller that has got no answer may send its command again.  Whatever became of it the
first time, the second time changes nothing (`redelivery_harmless`).  Each kind of command
has its own reason.

* A read changes nothing the first time either, nor does a command that fails before it
  writes.
* A put finds its own document, on which its condition may fail by now.
* A built-in function makes of its result the same document again
  (`Operators.builtin_again`).
* An import puts the same entries on top, of which the last of a key is there already.
* An export ends as it did before, since the directory is as it has left it
  (`BackupDirectory.exportEntries_again`).
-/

namespace BucketCluster.Store

variable {s : Store} {c : Command} {b : String} {k : Key} {u : Update}

/-- The function of the update is one of the built-in ones, if there is one, and all numbers
in the stored document are integers. -/
structure UpdatesBuiltin (s : Store) (b : String) (k : Key) (u : Update) : Prop where
  builtin : ∀ g, s.operators.functions.get? u.function = some g →
    ∃ name, Operators.builtin.functions.get? name = some g
  whole : ∀ d j, (s.contents b).get? k = some d → d.toJson = .ok j → j.Whole

/-! ## Writing the same again -/

theorem create_create (s : Store) (b : String) : (s.create b).create b = s.create b := by
  rw [create, contents_create, create, setContents_setContents]

theorem drop_drop (s : Store) (b : String) : (s.drop b).drop b = s.drop b := by
  unfold drop
  rw [SortedMap.erase_of_get? (SortedMap.get?_erase_self s.buckets b)]

theorem remove_remove (s : Store) (b : String) (k : Key) :
    (s.remove b k).remove b k = s.remove b k := by
  cases hb : s.buckets.get? b with
  | none =>
    have hnone : s.remove b k = s := by rw [remove, hb]
    rw [hnone, hnone]
  | some ds =>
    have hsome : s.remove b k = s.setContents b (ds.erase k) := by rw [remove, hb]
    have hbucket : (s.setContents b (ds.erase k)).buckets.get? b = some (ds.erase k) :=
      SortedMap.get?_insert_self _ _ _
    rw [hsome, remove, hbucket]
    simp only
    rw [SortedMap.erase_of_get? (SortedMap.get?_erase_self ds k), setContents_setContents]

/-- An update by a built-in function makes of its own result what it is. -/
theorem updated_again {g : UpdateFunction} {d d' : Document} (h : s.UpdatesBuiltin b k u)
    (hg : s.operators.function u.function = .ok g) (hd : (s.contents b).get? k = some d)
    (hupdated : g.updated k d u = .ok d') : g.updated k d' u = .ok d' := by
  obtain ⟨name, hname⟩ := h.builtin g (function_eq_ok.1 hg)
  obtain ⟨-, htime⟩ := Operators.builtin_functions hname
  obtain ⟨d₁, hrun, hcheck⟩ := of_bind_ok hupdated
  obtain ⟨_, hdeadline, heq⟩ := of_bind_ok hcheck
  cases heq
  rw [htime] at hrun hdeadline
  have hagain : g.run k d' u.parameters u.deadline = .ok d' :=
    Operators.builtin_again hname (fun j hj => h.whole d j hd hj) hrun
  rw [UpdateFunction.updated, htime, hagain]
  show (u.deadline.final.check u.function >>= fun _ => .ok d') = .ok d'
  rw [hdeadline]
  rfl

/-! ## Kinds of commands -/

/-- What changes nothing once changes nothing twice. -/
theorem twice_of_same (h : (s.apply c).2 = s) : ((s.apply c).2.apply c).2 = (s.apply c).2 := by
  rw [h, h]

theorem apply_of_read {id : String} {op : Operation} (h : (s.perform op).2 = s) :
    (s.apply ⟨id, op⟩).2 = s := by
  unfold apply
  split
  · rfl
  · exact h

theorem putValue_twice (s : Store) (id b : String) (k : Key) (d : Document) (p : Option Predicate) :
    ((s.apply ⟨id, .putValue b k d p⟩).2.apply ⟨id, .putValue b k d p⟩).2 =
      (s.apply ⟨id, .putValue b k d p⟩).2 := by
  cases hf : s.operators.filter p with
  | error e => exact twice_of_same (by rw [apply_of_filter hf])
  | ok f =>
    by_cases hkeeps : (((s.contents b).get? k).map (f.keeps k)).getD true = true
    · have hstored : (s.apply ⟨id, .putValue b k d p⟩).2 = s.store b k d := by
        rw [apply_putValue id d hf, if_pos hkeeps]
      have hf' : (s.store b k d).operators.filter p = .ok f := hf
      -- the condition may fail on the document that is there now
      rw [hstored, apply_putValue id d hf']
      split
      · exact store_store s b k d d
      · rfl
    · refine twice_of_same ?_
      rw [apply_putValue id d hf, if_neg hkeeps]

theorem updateValue_twice (id : String) (h : s.UpdatesBuiltin b k u) :
    ((s.apply ⟨id, .updateValue b k u⟩).2.apply ⟨id, .updateValue b k u⟩).2 =
      (s.apply ⟨id, .updateValue b k u⟩).2 := by
  cases hanswer : (s.apply ⟨id, .updateValue b k u⟩).1 with
  | error e => exact twice_of_same (failed_apply_same hanswer nofun nofun)
  | ok a =>
    obtain ⟨g, d, d', hg, hd, hupdated, hstored⟩ := updated_of_apply hanswer
    have hg' : (s.store b k d').operators.function u.function = .ok g := hg
    have hd' : ((s.store b k d').contents b).get? k = some d' := get?_store_self s b k d'
    rw [hstored, apply_updateValue id hg', hd']
    simp only [updated_again h hg hd hupdated]
    exact store_store s b k d' d'

theorem importBackup_twice (s : Store) (b source : String) :
    ((s.importBackup b source).2.importBackup b source).2 = (s.importBackup b source).2 := by
  cases hread : s.backups.importEntries source with
  | error e =>
    have hagain : (s.create b).backups.importEntries source = .error e := hread
    rw [importBackup_of_failed b hread, importBackup_of_failed b hagain]
    exact create_create s b
  | ok es =>
    have hagain : (s.setContents b ((s.contents b).insertAll es)).backups.importEntries source =
      .ok es := hread
    rw [importBackup_of_entries b hread, importBackup_of_entries b hagain]
    simp only
    rw [contents_setContents_self, setContents_setContents, SortedMap.insertAll_insertAll]

theorem exportBackup_twice (s : Store) (b destination : String) :
    ((s.exportBackup b destination).2.exportBackup b destination).2 =
      (s.exportBackup b destination).2 := by
  have hagain := BackupDirectory.exportEntries_again s.backups destination (s.contents b).entries
  exact congrArg (fun r => { s with backups := r.2 }) hagain

theorem apply_twice (s : Store) (c : Command)
    (h : ∀ b k u, c.operation = .updateValue b k u → s.UpdatesBuiltin b k u) :
    ((s.apply c).2.apply c).2 = (s.apply c).2 := by
  obtain ⟨id, op⟩ := c
  cases op with
  | putValue b k d p => exact putValue_twice s id b k d p
  | updateValue b k u => exact updateValue_twice id (h b k u rfl)
  | removeValue b k => exact remove_remove s b k
  | removeBucket b => exact drop_drop s b
  | importBackup b source => exact importBackup_twice s b source
  | exportBackup b destination => exact exportBackup_twice s b destination
  | _ => exact twice_of_same (apply_of_read rfl)

/-- **A command that comes twice does no harm.**  Whether it has succeeded or failed the
first time, the second time buckets, entries and backups stay what they are; and so they do
on a node, which undoes commands that crash. -/
theorem redelivery_harmless (s : Store) (c : Command)
    (h : ∀ b k u, c.operation = .updateValue b k u → s.UpdatesBuiltin b k u) :
    ((s.apply c).2.apply c).2 = (s.apply c).2 ∧ ((s.handle c).2.handle c).2 = (s.handle c).2 := by
  refine ⟨apply_twice s c h, ?_⟩
  unfold handle
  cases hcrashes : s.crashes c.operation with
  | true => simp only [if_true, hcrashes]
  | false =>
    simp only [Bool.false_eq_true, if_false]
    split
    · rfl
    · exact apply_twice s c h

/-- An object with the largest integer, a list and the zero that has a sign. -/
def counters : Json :=
  .object [("a", .number (.integer 18446744073709551615)),
    ("n", .array [.number (.integer 1), .number (.integer (-2)), .number (.real ⟨true, 0⟩)])]

theorem stored_counters : Json.Stored Json.maxDepth counters := by
  refine .object (List.pairwise_pair.2 (by decide)) ?_
  rw [List.forall_mem_cons, List.forall_mem_singleton]
  refine ⟨.number _ _, .array ?_⟩
  rw [List.forall_mem_cons, List.forall_mem_cons, List.forall_mem_singleton]
  exact ⟨.number _ _, .number _ _, .number _ _⟩

theorem whole_counters : counters.Whole := by
  refine .object ?_
  rw [List.forall_mem_cons, List.forall_mem_singleton]
  refine ⟨.number ⟨by decide, by decide⟩, .array ?_⟩
  rw [List.forall_mem_cons, List.forall_mem_cons, List.forall_mem_singleton]
  exact ⟨.number ⟨by decide, by decide⟩, .number ⟨by decide, by decide⟩, .number rfl⟩

/-- A store in which the object stands. -/
def counting : Store :=
  ⟨.ofList [("b", .ofList [(⟨[107]⟩, .ofJson counters)])], Operators.builtin, .absent "/backups"⟩

def merging : Update := ⟨"merge", 1000, .ofList [("z", "é"), ("m", "")]⟩

theorem counting_updatesBuiltin : counting.UpdatesBuiltin "b" ⟨[107]⟩ merging where
  builtin := fun g hg => ⟨"merge", hg⟩
  whole := by
    intro d j hd hj
    have hstored : (counting.contents "b").get? ⟨[107]⟩ = some (.ofJson counters) := by
      decide +kernel
    rw [hstored] at hd
    cases hd
    rw [Document.toJson_ofJson stored_counters whole_counters] at hj
    cases hj
    exact whole_counters

/-- The members are set once and for all. -/
theorem redelivery_harmless_counting :
    (∀ b k u, Operation.updateValue "b" ⟨[107]⟩ merging = .updateValue b k u →
        counting.UpdatesBuiltin b k u) ∧
      (counting.apply ⟨"", .updateValue "b" ⟨[107]⟩ merging⟩).1 = .ok (.value (some (.ofText
        "\x7b\"a\":18446744073709551615,\"m\":\"\",\"n\":[1,-2,-0.0],\"z\":\"é\"\x7d"))) ∧
      ((counting.apply ⟨"", .updateValue "b" ⟨[107]⟩ merging⟩).2.apply
          ⟨"", .updateValue "b" ⟨[107]⟩ merging⟩).2 =
        (counting.apply ⟨"", .updateValue "b" ⟨[107]⟩ merging⟩).2 := by
  have h : ∀ b k u, Operation.updateValue "b" ⟨[107]⟩ merging = .updateValue b k u →
      counting.UpdatesBuiltin b k u := by
    rintro b k u heq
    cases heq
    exact counting_updatesBuiltin
  exact ⟨h, by decide +kernel,
    (redelivery_harmless counting ⟨"", .updateValue "b" ⟨[107]⟩ merging⟩ h).1⟩

end BucketCluster.Store
