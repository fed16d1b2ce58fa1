import BucketCluster.Proofs.BackupDirectory
import BucketCluster.Proofs.Store.Apply

/-!
# Imports are all or nothing

An import reads its whole file before it stores an entry.  `import_all_or_nothing` follows
it through both outcomes: either every line that is not blank is an entry, and all of them
are stored, or nothing is.

The bucket is created before the file is read, and stays if the import fails
(`failed_import_creates`); a bucket that was there before is what it was.
-/

namespace BucketCluster.Store

open BackupDirectory

variable {s : Store} {source : String} {e : StoreError} {es : List (Key × Document)}

/-- What an import does when there is nothing to read. -/
theorem importBackup_of_failed (b : String) (h : s.backups.importEntries source = .error e) :
    s.importBackup b source = (.error e, s.create b) := by
  have hcreated : (s.create b).backups.importEntries source = .error e := h
  unfold importBackup
  simp only [hcreated]

/-- What an import does when the file holds entries. -/
theorem importBackup_of_entries (b : String)
    (h : s.backups.importEntries source = .ok es) :
    s.importBackup b source = (.ok es.length, s.setContents b ((s.contents b).insertAll es)) := by
  have hcreated : (s.create b).backups.importEntries source = .ok es := h
  unfold importBackup
  simp only [hcreated]
  rw [create, contents_setContents_self, setContents_setContents]

/-- An import does to the buckets what the backup that it reads says. -/
theorem buckets_importBackup_congr {s t : Store} {source : String} (b : String)
    (hbuckets : t.buckets = s.buckets)
    (h : t.backups.importEntries source = s.backups.importEntries source) :
    (t.importBackup b source).1 = (s.importBackup b source).1 ∧
      (t.importBackup b source).2.buckets = (s.importBackup b source).2.buckets := by
  have ht : (t.create b).backups.importEntries source = s.backups.importEntries source := h
  have hs : (s.create b).backups.importEntries source = s.backups.importEntries source := rfl
  have hcreate : (t.create b).buckets = (s.create b).buckets := by
    unfold create setContents contents
    rw [hbuckets]
  unfold importBackup
  simp only [ht, hs]
  cases s.backups.importEntries source with
  | error e => exact ⟨rfl, hcreate⟩
  | ok es =>
    refine ⟨rfl, ?_⟩
    unfold setContents contents
    simp only [hcreate]

/-- The bucket exists and holds the documents; nothing else has changed. -/
structure Replaced (s : Store) (b : String) (ds : Documents) (s' : Store) : Prop where
  bucket : s'.buckets.get? b = some ds
  others : ∀ b', b' ≠ b → s'.buckets.get? b' = s.buckets.get? b'
  operators : s'.operators = s.operators
  backups : s'.backups = s.backups

theorem replaced_setContents (s : Store) (b : String) (ds : Documents) :
    Replaced s b ds (s.setContents b ds) where
  bucket := SortedMap.get?_insert_self _ _ _
  others := fun _ hb => SortedMap.get?_insert_of_ne _ _ hb
  operators := rfl
  backups := rfl

/-- **Imports are all or nothing.**  An import fails exactly if its name is not a plain one,
there is no such file, or some line of it is neither blank nor an entry.  Then no entry of
any bucket has changed, nor has anything else, except that the bucket exists.  Otherwise
the lines that are not blank are counted, and the bucket holds what it held under the
entries of the file, of which the last one of a key is on top. -/
theorem import_all_or_nothing (s : Store) (id b source : String) :
    (∃ e s', s.apply ⟨id, .importBackup b source⟩ = (.error e, s') ∧
      ¬ (isBackupName source = true ∧ ∃ bs es, s.backups.content? source = some bs ∧
        Listed (lines bs) es) ∧
      Replaced s b (s.contents b) s' ∧ (s.hasBucket b = true → s' = s)) ∨
    (∃ n s', s.apply ⟨id, .importBackup b source⟩ = (.ok (.count (UInt64.ofNat n)), s') ∧
      isBackupName source = true ∧ ∃ bs es, s.backups.content? source = some bs ∧
      Listed (lines bs) es ∧
        n = (lines bs).countP (fun l => !isBlankLine l) ∧
        ∃ ds, Replaced s b ds s' ∧ ∀ k,
        ds.get? k = (Entries.get? k es.reverse).or ((s.contents b).get? k)) := by
  cases hread : s.backups.importEntries source with
  | error e =>
    refine .inl ⟨e, s.create b, ?_, ?_, replaced_setContents s b _, ?_⟩
    · rw [apply_importBackup, importBackup_of_failed b hread]
      rfl
    · rintro ⟨hname, bs, es, hfile, hlisted⟩
      rw [importEntries_eq_ok.2 ⟨hname, bs, hfile, hlisted⟩] at hread
      cases hread
    · intro hb
      obtain ⟨ds, hds⟩ := Option.isSome_iff_exists.1 hb
      exact create_of_get? hds
  | ok es =>
    obtain ⟨hname, bs, hfile, hlisted⟩ := importEntries_eq_ok.1 hread
    refine .inr ⟨es.length, _, ?_, hname, bs, es, hfile, hlisted, hlisted.length, _,
      replaced_setContents s b ((s.contents b).insertAll es),
        fun k => SortedMap.get?_insertAll_list _ es k⟩
    rw [apply_importBackup, importBackup_of_entries b hread]
    rfl

/-- A key that comes twice, with a blank line between. -/
example :
    let dir : BackupDirectory := ⟨"/backups", some (.ofList
      [("nightly", .file (line (⟨[1]⟩, ⟨[2]⟩) ++ [32, 10] ++ line (⟨[1]⟩, ⟨[3]⟩)))]), ∅⟩
    let r := (Store.empty .empty dir).apply ⟨"", .importBackup "b" "nightly"⟩
    r.1 = .ok (.count 2) ∧ r.2.buckets.get? "b" = some (.ofList [(⟨[1]⟩, ⟨[3]⟩)]) := by
  decide +kernel

/-- An empty store has a bucket after an import for which there is no file. -/
theorem failed_import_creates :
    ((Store.empty .empty (.absent "/backups")).apply ⟨"", .importBackup "b" "nope"⟩).1 =
        .error (.backup "open backup file: no such file") ∧
      (Store.empty .empty (.absent "/backups")).buckets.get? "b" = none ∧
      ((Store.empty .empty (.absent "/backups")).apply
          ⟨"", .importBackup "b" "nope"⟩).2.buckets.get? "b" =
        some ∅ := by
  decide +kernel

end BucketCluster.Store
