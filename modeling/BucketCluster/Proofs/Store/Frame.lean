import BucketCluster.Proofs.Store.Failing

/-!
# What commands leave alone

Every command has a footprint: the entries that it may change (`Touches`), the bucket that it
may create (`Creates`), and the bucket that it removes.  Whatever the store, and however the
command ends, all else is as before (`apply_confined`).

A write is followed by what it does to single entries: a document that is stored
(`Confined.of_store`), one that is removed, a bucket that is dropped, and the entries of a
backup.  Commands that write nothing leave all buckets as they are.
-/

namespace BucketCluster

/-! ## Footprints -/

namespace Operation

/-- The operation creates the bucket if it is missing. -/
inductive Creates : Operation → String → Prop
  | putValue (b : String) (k : Key) (d : Document) (p : Option Predicate) :
  Creates (.putValue b k d p) b
  | importBackup (b source : String) : Creates (.importBackup b source) b

/-- The operation only looks at buckets: reads, queries, and exports. -/
inductive Looks : Operation → Prop
  | getBuckets : Looks .getBuckets
  | getValue (b : String) (k : Key) (p : Option Predicate) : Looks (.getValue b k p)
  | getValues (b : String) (ks : KeySet) (p : Option Predicate) : Looks (.getValues b ks p)
  | getKeys (b : String) : Looks (.getKeys b)
  | rangeQuery (b : String) (range : KeyRange) (p : Option Predicate) :
      Looks (.rangeQuery b range p)
  | predicateQuery (b : String) (p : Predicate) : Looks (.predicateQuery b p)
  | exportBackup (b destination : String) : Looks (.exportBackup b destination)

end Operation

namespace Store

open BackupDirectory

variable {s s' : Store} {op : Operation} {b b' : String} {k k' : Key}

/-- The entries that an operation may change: the one that it names, those of which the
backup that it reads has the keys, or all of the bucket that it removes. -/
inductive Touches (s : Store) : Operation → String → Key → Prop
  | putValue (b : String) (k : Key) (d : Document) (p : Option Predicate) :
  Touches s (.putValue b k d p) b k
  | removeValue (b : String) (k : Key) : Touches s (.removeValue b k) b k
  | updateValue (b : String) (k : Key) (u : Update) : Touches s (.updateValue b k u) b k
  | importBackup {b source : String} {bs : Bytes} {es : List (Key × Document)} {k : Key}
      (file : s.backups.content? source = some bs) (listed : Listed (lines bs) es)
      (hk : k ∈ es.map (·.1)) : Touches s (.importBackup b source) b k
  | removeBucket (b : String) (k : Key) : Touches s (.removeBucket b) b k

/-- From the one store to the other nothing has changed but what the operation may change. -/
structure Confined (s : Store) (op : Operation) (s' : Store) : Prop where
  /-- Entries that are changed, new, or gone. -/
  entries : ∀ b k, (s'.contents b).get? k ≠ (s.contents b).get? k → s.Touches op b k
  appears : ∀ b, s.hasBucket b = false → s'.hasBucket b = true → op.Creates b
  disappears : ∀ b, s.hasBucket b = true → s'.hasBucket b = false → op = .removeBucket b

/-! ## Names of buckets -/

theorem hasBucket_setContents (s : Store) (b : String) (ds : Documents) (b' : String) :
    (s.setContents b ds).hasBucket b' = true ↔ b' = b ∨ s.hasBucket b' = true :=
  SortedMap.contains_insert _ _ _ _

theorem hasBucket_drop_of_ne (s : Store) (h : b' ≠ b) : (s.drop b).hasBucket b' = s.hasBucket b' :=
  congrArg Option.isSome (SortedMap.get?_erase_of_ne _ h)

/-- A bucket that has an entry exists. -/
theorem hasBucket_of_contains (h : (s.contents b).contains k = true) : s.hasBucket b = true := by
  unfold contents at h
  cases hb : s.buckets.get? b with
  | none =>
    rw [hb] at h
    cases h
  | some ds => rw [hasBucket, SortedMap.contains, hb, Option.isSome_some]

/-! ## Kinds of writes -/

namespace Confined

theorem of_buckets (op : Operation) (h : s'.buckets = s.buckets) : s.Confined op s' where
  entries b k hne := by
    unfold contents at hne
    rw [h] at hne
    exact absurd rfl hne
  appears b hno hyes := by
    rw [hasBucket, h, ← hasBucket, hno] at hyes
    cases hyes
  disappears b hyes hno := by
    rw [hasBucket, h, ← hasBucket, hyes] at hno
    cases hno

/-- One bucket has other documents; the operation may create the bucket, unless it is there. -/
theorem of_setContents {ds : Documents}
    (hentries : ∀ k, ds.get? k ≠ (s.contents b).get? k → s.Touches op b k)
    (hcreates : s.hasBucket b = false → op.Creates b) : s.Confined op (s.setContents b ds) where
  entries b' k hne := by
    rw [contents_setContents] at hne
    split at hne
    · next hb =>
      subst hb
      exact hentries k hne
    · exact absurd rfl hne
  appears b' hno hyes := by
    rcases (hasBucket_setContents ..).1 hyes with rfl | hold
    · exact hcreates hno
    · rw [hno] at hold
      cases hold
  disappears b' hyes hno := by
    rw [(hasBucket_setContents ..).2 (.inr hyes)] at hno
    cases hno

/-- A document is stored under the key that the operation names. -/
theorem of_store {d : Document} (htouches : s.Touches op b k)
    (hcreates : s.hasBucket b = false → op.Creates b) : s.Confined op (s.store b k d) := by
  refine of_setContents (fun k' hne => ?_) hcreates
  by_cases hk : k' = k
  · subst hk
    exact htouches
  · exact absurd (SortedMap.get?_insert_of_ne _ _ hk) hne

theorem of_remove (s : Store) (b : String) (k : Key) :
    s.Confined (.removeValue b k) (s.remove b k) := by
  unfold remove
  split
  · next ds hds =>
    have hcontents : s.contents b = ds := by rw [contents, hds]; rfl
    have hhas : s.hasBucket b = true := by rw [hasBucket, SortedMap.contains, hds]; rfl
    refine of_setContents (fun k' hne => ?_) fun hno => ?_
    · by_cases hk : k' = k
      · subst hk
        exact .removeValue b k'
      · rw [hcontents] at hne
        exact absurd (SortedMap.get?_erase_of_ne ds hk) hne
    · rw [hhas] at hno
      cases hno
  · exact of_buckets _ rfl

theorem of_drop (s : Store) (b : String) : s.Confined (.removeBucket b) (s.drop b) where
  entries b' k hne := by
    rw [contents_drop] at hne
    split at hne
    · next hb =>
      subst hb
      exact .removeBucket b' k
    · exact absurd rfl hne
  appears b' hno hyes := by
    by_cases hb : b' = b
    · subst hb
      have hgone : (s.drop b').hasBucket b' = false :=
        congrArg Option.isSome (SortedMap.get?_erase_self _ _)
      rw [hgone] at hyes
      cases hyes
    · rw [hasBucket_drop_of_ne s hb, hno] at hyes
      cases hyes
  disappears b' hyes hno := by
    by_cases hb : b' = b
    · rw [hb]
    · rw [hasBucket_drop_of_ne s hb, hyes] at hno
      cases hno

/-- Creating a bucket changes no entry. -/
theorem of_create (hcreates : op.Creates b) : s.Confined op (s.create b) :=
  of_setContents (fun _ hne => absurd rfl hne) fun _ => hcreates

/-- An import may change what has a key of the file. -/
theorem of_importBackup (s : Store) (b source : String) :
    s.Confined (.importBackup b source) (s.importBackup b source).2 := by
  cases hread : s.backups.importEntries source with
  | error e =>
    rw [importBackup_of_failed b hread]
    exact of_create (.importBackup b source)
  | ok es =>
    obtain ⟨-, bs, hfile, hlisted⟩ := importEntries_eq_ok.1 hread
    rw [importBackup_of_entries b hread]
    refine of_setContents (fun k hne => .importBackup hfile hlisted ?_) fun _ =>
      .importBackup b source
    by_contra hk
    exact hne (SortedMap.get?_insertAll_of_notMem _ hk)

end Confined

/-! ## Commands -/

/-- What only looks at buckets leaves them as they are. -/
theorem buckets_apply_of_looks {c : Command} (h : c.operation.Looks) :
    (s.apply c).2.buckets = s.buckets := by
  obtain ⟨id, op⟩ := c
  unfold apply
  split
  · rfl
  · cases h <;> rfl

/-- A put stores its document, or leaves the store as it is. -/
theorem confined_putValue (s : Store) (id b : String) (k : Key) (d : Document)
    (p : Option Predicate) :
    s.Confined (.putValue b k d p) (s.apply ⟨id, .putValue b k d p⟩).2 := by
  cases hf : s.operators.filter p with
  | error e =>
    rw [apply_of_filter hf]
    exact .of_buckets _ rfl
  | ok f =>
    rw [apply_putValue id d hf]
    split
    · exact .of_store (.putValue b k d p) fun _ => .putValue b k d p
    · exact .of_buckets _ rfl

/-- An update that succeeds has found a document, and so a bucket. -/
theorem confined_updateValue (s : Store) (id b : String) (k : Key) (u : Update) :
    s.Confined (.updateValue b k u) (s.apply ⟨id, .updateValue b k u⟩).2 := by
  cases hanswer : (s.apply ⟨id, .updateValue b k u⟩).1 with
  | error e =>
    rw [failed_apply_same hanswer nofun nofun]
    exact .of_buckets _ rfl
  | ok a =>
    obtain ⟨g, d, d', -, hd, -, hstored⟩ := updated_of_apply hanswer
    have hhas : s.hasBucket b = true :=
      hasBucket_of_contains (k := k) (by rw [SortedMap.contains, hd]; rfl)
    rw [hstored]
    refine .of_store (.updateValue b k u) fun hno => ?_
    rw [hhas] at hno
    cases hno

theorem confined_apply (s : Store) (c : Command) : s.Confined c.operation (s.apply c).2 := by
  obtain ⟨id, op⟩ := c
  cases op with
  | putValue b k d p => exact confined_putValue s id b k d p
  | updateValue b k u => exact confined_updateValue s id b k u
  | removeValue b k => exact .of_remove s b k
  | removeBucket b => exact .of_drop s b
  | importBackup b source => exact .of_importBackup s b source
  | _ => exact .of_buckets _ (buckets_apply_of_looks (by constructor))

/-- **Commands stay within their footprint.**  Whatever the store and whether or not the
command succeeds, an entry has changed, appeared or disappeared only if the command touches
it, and a bucket has appeared or disappeared only if the command creates or removes it; also
on a node, which undoes commands that crash. Reads, queries and exports leave all buckets as
they are, and an update leaves their names. -/
theorem apply_confined (s : Store) (c : Command) :
    s.Confined c.operation (s.apply c).2 ∧ s.Confined c.operation (s.handle c).2 ∧
      (c.operation.Looks → (s.apply c).2.buckets = s.buckets) ∧
      ∀ b k u, c.operation = .updateValue b k u → ∀ b',
      (s.apply c).2.hasBucket b' = s.hasBucket b' := by
  have hconfined := confined_apply s c
  refine ⟨hconfined, ?_, fun hlooks => ?_, fun b k u hc b' => ?_⟩
  · unfold handle
    split
    · exact .of_buckets _ rfl
    · exact hconfined
  · exact buckets_apply_of_looks hlooks
  · rw [hc] at hconfined
    cases hbefore : s.hasBucket b' with
    | true =>
      by_contra hgone
      cases hconfined.disappears b' hbefore (Bool.not_eq_true _ ▸ hgone)
    | false =>
      by_contra hnew
      cases hconfined.appears b' hbefore (Bool.not_eq_false _ ▸ hnew)

end Store

end BucketCluster
