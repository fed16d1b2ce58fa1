import BucketCluster.Proofs.Backup
import BucketCluster.Proofs.Store.Import

/-!
# Restoring a backup

`backup_restores` follows the entries of a bucket out to a file and back in: what was
exported is put on top of what the target holds, and nothing else changes.  The store
that imports may be any later one, of this node or another, as long as the file is the
one that was exported.
-/

namespace BucketCluster.Store

open BackupDirectory

variable {name : String}

/-- **Backups restore what was exported**: the entries are put on top of what the target
holds, both calls count them, an empty target becomes equal to the source, and importing a
second time changes nothing. -/
theorem backup_restores (s : Store) (source : String) (hname : isBackupName name = true)
    (haccepts : s.backups.Accepts name) :
    ∃ exported, s.exportBackup source name = (.ok (s.contents source).size, exported) ∧
      exported.buckets = s.buckets ∧
      ∀ (later : Store) (target : String),
      later.backups.content? name = exported.backups.content? name →
        ∃ restored, later.importBackup target name = (.ok (s.contents source).size, restored) ∧
          (∀ k, (restored.contents target).get? k =
            ((s.contents source).get? k).or ((later.contents target).get? k)) ∧
          (∀ b, b ≠ target → restored.buckets.get? b = later.buckets.get? b) ∧
          (later.contents target = ∅ → restored.contents target = s.contents source) ∧
          restored.importBackup target name = (.ok (s.contents source).size, restored) := by
  have hexport : (s.exportBackup source name).1 = .ok (s.contents source).size :=
    congrArg Prod.fst (exportEntries_of_accepts hname haccepts (s.contents source).entries)
  refine ⟨(s.exportBackup source name).2, Prod.ext hexport rfl, rfl, fun later target hfile => ?_⟩
  have hread := importEntries_of_exported hname
    (hfile.trans (content?_exported hname haccepts (s.contents source).entries))
  have hget (k : Key) :=
    SortedMap.get?_insertAll_entries (later.contents target) (s.contents source) k
  have hagain : (later.setContents target ((later.contents target).insertAll
      (s.contents source).entries)).backups.importEntries name =
        .ok (s.contents source).entries := hread
  refine ⟨_, importBackup_of_entries target hread, fun k => ?_, fun b hb => ?_,
    fun hempty => ?_, ?_⟩
  · rw [contents_setContents_self, hget]
  · exact SortedMap.get?_insert_of_ne _ _ hb
  · rw [contents_setContents_self]
    refine SortedMap.ext_get? fun k => ?_
    rw [hget, hempty, SortedMap.get?_empty, Option.or_none]
  · rw [importBackup_of_entries target hagain, contents_setContents_self,
      SortedMap.insertAll_insertAll, setContents_setContents]
    rfl

/-- A bucket with the empty key, a key of marks and a line feed, and one that is no text. -/
def oddBucket : Store :=
  (Store.empty .empty (.absent "/backups")).setContents "a"
    (.ofList [(⟨[]⟩, ⟨[0, 10, 255]⟩), (⟨[34, 92, 10, 7]⟩, ⟨[]⟩), (⟨[195, 40]⟩, ⟨[34]⟩)])

theorem backup_restores_oddBucket :
    ∃ exported restored, oddBucket.exportBackup "a" "nightly" = (.ok 3, exported) ∧
      exported.importBackup "b" "nightly" = (.ok 3, restored) ∧
      restored.contents "b" = oddBucket.contents "a" ∧
      restored.importBackup "b" "nightly" = (.ok 3, restored) := by
  have hsize : (oddBucket.contents "a").size = 3 := by decide +kernel
  have haccepts : oddBucket.backups.Accepts "nightly" :=
    ⟨by decide +kernel, by decide +kernel, by decide +kernel, by decide +kernel⟩
  obtain ⟨exported, hexport, hbuckets, h⟩ :=
    backup_restores oddBucket "a" (by decide +kernel) haccepts
  obtain ⟨restored, himport, -, -, hempty, hagain⟩ := h exported "b" rfl
  rw [hsize] at hexport himport hagain
  refine ⟨exported, restored, hexport, himport, hempty ?_, hagain⟩
  unfold contents
  rw [hbuckets]
  decide +kernel

end BucketCluster.Store
