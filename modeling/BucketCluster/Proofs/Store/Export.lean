import BucketCluster.Proofs.Store.Import

/-!
# Exports spare other backups

Whatever way an export ends, it has touched at most two names: the one it was given, and
the one under which it begins its file.  All other backups can be imported as before
(`export_spares_others`).

The second name is a backup name like any other.  A backup that has it is lost to an
export of the backup it looks unfinished of (`export_takes_unfinished`).
-/

namespace BucketCluster.Store

open BackupDirectory

/-- **An export spares the other backups.**  Whatever the directory holds and however the
export ends, a backup that has neither the name of the export nor that of its unfinished
file is read as before, with the same entries or the same error; so importing it anywhere
has the same answer and the same effect. -/
theorem export_spares_others (s : Store) (id b destination : String) {name : String}
    (hname : name ≠ destination) (hpartial : name ≠ partialName destination) :
    (s.apply ⟨id, .exportBackup b destination⟩).2.backups.importEntries name =
      s.backups.importEntries name ∧
      ∀ id' target,
        (((s.apply ⟨id, .exportBackup b destination⟩).2.apply ⟨id', .importBackup target name⟩).1 =
          (s.apply ⟨id', .importBackup target name⟩).1) ∧
        ((s.apply ⟨id, .exportBackup b destination⟩).2.apply
            ⟨id', .importBackup target name⟩).2.buckets =
          (s.apply ⟨id', .importBackup target name⟩).2.buckets := by
  have hread : (s.apply ⟨id, .exportBackup b destination⟩).2.backups.importEntries name =
      s.backups.importEntries name := by
    rw [apply_exportBackup]
    exact importEntries_congr (path_exportEntries _ _ _) (get?_exportEntries _ _ hname hpartial)
  refine ⟨hread, fun id' target => ?_⟩
  rw [apply_importBackup, apply_importBackup]
  obtain ⟨hanswer, hbuckets⟩ := buckets_importBackup_congr (s := s)
    (t := (s.apply ⟨id, .exportBackup b destination⟩).2) target rfl hread
  exact ⟨congrArg (Except.map _) hanswer, hbuckets⟩

/-- A directory that takes the place of one backup, and a file with a blank line, an entry,
and part of one. -/
def crowdedDirectory : BackupDirectory :=
  ⟨"/backups", some (.ofList [("nightly", .directory),
    ("weekly", .file (10 :: line (⟨[107]⟩, ⟨[49]⟩) ++ (line (⟨[107]⟩, ⟨[49]⟩)).take 7))]), ∅⟩

def crowdedStore : Store := ⟨.ofList [("a", .ofList [(⟨[1]⟩, ⟨[2]⟩)])], .empty, crowdedDirectory⟩

/-- The export fails half-way, and the import fails in line 3 before and after it. -/
theorem export_spares_others_crowded :
    ("weekly" ≠ "nightly" ∧ "weekly" ≠ partialName "nightly") ∧
      (crowdedStore.apply ⟨"", .exportBackup "a" "nightly"⟩).1 =
        .error (.backup "finalize backup file: is a directory") ∧
      (crowdedStore.apply ⟨"", .exportBackup "a" "nightly"⟩).2.backups ≠ crowdedStore.backups ∧
      crowdedStore.backups.importEntries "weekly" = .error
        (.malformed "/backups/weekly:3: JSON text ends too early") ∧
      (crowdedStore.apply ⟨"", .exportBackup "a" "nightly"⟩).2.backups.importEntries "weekly" =
        crowdedStore.backups.importEntries "weekly" := by
  have hname : "weekly" ≠ "nightly" := by decide
  have hpartial : "weekly" ≠ partialName "nightly" := by decide
  exact ⟨⟨hname, hpartial⟩, by decide +kernel, by decide +kernel, by decide +kernel,
    (export_spares_others crowdedStore "" "a" "nightly" hname hpartial).1⟩

/-- A store that has exported its only bucket under the name of an unfinished file. -/
def unfinishedName : Store :=
  ((⟨.ofList [("a", .ofList [(⟨[107]⟩, ⟨[118]⟩)])], .empty, .absent "/backups"⟩ : Store).apply
    ⟨"", .exportBackup "a" "x.partial"⟩).2

/-- Both names are good ones, but the next export takes the backup away. -/
theorem export_takes_unfinished :
    isBackupName "x" = true ∧ isBackupName "x.partial" = true ∧ "x.partial" ≠ "x" ∧
      unfinishedName.backups.importEntries "x.partial" = .ok [(⟨[107]⟩, ⟨[118]⟩)] ∧
      (unfinishedName.apply ⟨"", .exportBackup "a" "x"⟩).1 = .ok (.count 1) ∧
      (unfinishedName.apply ⟨"", .exportBackup "a" "x"⟩).2.backups.importEntries "x.partial" =
        .error (.backup "open backup file: no such file") := by
  decide +kernel

end BucketCluster.Store
