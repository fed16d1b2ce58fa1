import BucketCluster.Proofs.Store.Export

/-!
# What failed commands leave behind

A command that fails leaves no bucket and no entry changed (`failed_apply`).  A put or an
update may write at any time and fail after that, and does not (`tryPut_cases`,
`tryUpdate_cases`); two commands are looked at on their own.

* A put creates its bucket before the condition is checked.  The condition is only
  checked against a document that is there, so the bucket was there as well
  (`failed_putValue`).
* An export begins a file under another name, and any call of the file system may fail
  after that (`BackupDirectory.get?_failed_export`).

An import is the one command that creates a bucket and may fail then.
-/

namespace BucketCluster

namespace Store

open BackupDirectory

variable {s : Store} {b : String} {k : Key} {p : Option Predicate} {c : Command} {e : StoreError}

theorem error_of_map {α β : Type} {f : α → β} {r : Except StoreError α} (h : r.map f = .error e) :
    r = .error e := by
  cases r with
  | error e' =>
    cases h
    rfl
  | ok a => cases h

/-- An update that fails leaves the store on which it was tried. -/
theorem failed_tryUpdate {u : Update} (h : (s.tryUpdate b k u).1 = .error e) :
    (s.tryUpdate b k u).2 = s := by
  rcases s.tryUpdate_cases b k u with ⟨e', hupdate⟩ | ⟨d, hupdate, -⟩
  · rw [hupdate]
  · rw [hupdate] at h
    cases h

/-- A put whose condition fails has found its bucket. -/
theorem failed_putValue {id : String} {d : Document}
    (h : (s.apply ⟨id, .putValue b k d p⟩).1 = .error e) :
    (s.apply ⟨id, .putValue b k d p⟩).2 = s := by
  cases hf : s.operators.filter p with
  | error e => rw [apply_of_filter hf]
  | ok f =>
    rw [apply_putValue id d hf] at h ⊢
    split
    · next hkeeps =>
      rw [if_pos hkeeps] at h
      cases h
    · rfl

theorem failed_perform {op : Operation} (h : (s.perform op).1 = .error e)
    (hput : ∀ b k d p, op ≠ .putValue b k d p) (himport : ∀ b source, op ≠ .importBackup b source)
    (hexport : ∀ b destination, op ≠ .exportBackup b destination) : (s.perform op).2 = s := by
  cases op with
  | putValue b k d p => exact absurd rfl (hput b k d p)
  | importBackup b source => exact absurd rfl (himport b source)
  | exportBackup b destination => exact absurd rfl (hexport b destination)
  | updateValue b k u => exact failed_tryUpdate (error_of_map h)
  | removeValue b k => cases h
  | removeBucket b => cases h
  | _ => rfl

/-- Nothing at all has changed unless backups are involved. -/
theorem failed_apply_same (h : (s.apply c).1 = .error e)
    (himport : ∀ b source, c.operation ≠ .importBackup b source)
    (hexport : ∀ b destination, c.operation ≠ .exportBackup b destination) : (s.apply c).2 = s := by
  by_cases hput : ∃ b k d p, c.operation = .putValue b k d p
  · obtain ⟨b, k, d, p, hc⟩ := hput
    obtain ⟨id, op⟩ := c
    cases hc
    exact failed_putValue h
  · unfold apply at h ⊢
    split
    · rfl
    · next hcheck =>
      rw [hcheck] at h
      exact failed_perform h (fun b k d p hc => hput ⟨b, k, d, p, hc⟩) himport hexport

theorem exportEntries_of_failed {id destination : String}
    (h : (s.apply ⟨id, .exportBackup b destination⟩).1 = .error e) :
    (exportEntries s.backups destination (s.contents b).entries).1 = .error e :=
  error_of_map h

/-- **A failed command changes nothing.**  If a command other than an import fails, every
bucket is what it was, and so is everything else in the store, but for the unfinished file
of an export: the file under the name of the backup, and every other one, is what it was. -/
theorem failed_apply (h : (s.apply c).1 = .error e)
    (himport : ∀ b source, c.operation ≠ .importBackup b source) :
    (s.apply c).2.buckets = s.buckets ∧ (s.apply c).2.operators = s.operators ∧
      ((∀ b destination, c.operation ≠ .exportBackup b destination) → (s.apply c).2 = s) ∧
      ∀ b destination, c.operation = .exportBackup b destination →
        (s.apply c).2.backups.listing.get? destination = s.backups.listing.get? destination ∧
        ∀ name, name ≠ partialName destination →
          (s.apply c).2.backups.listing.get? name = s.backups.listing.get? name := by
  by_cases hexport : ∃ b destination, c.operation = .exportBackup b destination
  · obtain ⟨b, destination, hc⟩ := hexport
    obtain ⟨id, op⟩ := c
    cases hc
    have he := exportEntries_of_failed h
    refine ⟨rfl, rfl, fun hno => absurd rfl (hno b destination), ?_⟩
    intro b' destination' hc
    cases hc
    exact ⟨get?_failed_export he (ne_partialName destination),
      fun name hname => get?_failed_export he hname⟩
  · have hno : ∀ b destination, c.operation ≠ .exportBackup b destination :=
      fun b destination hc => hexport ⟨b, destination, hc⟩
    have hsame := failed_apply_same h himport hno
    refine ⟨congrArg buckets hsame, congrArg operators hsame, fun _ => hsame, ?_⟩
    intro b destination hc
    exact absurd hc (hno b destination)

/-- A directory where one backup should go, and no room for another that is there already. -/
def blockedStore : Store :=
  ⟨SortedMap.ofList [("a", SortedMap.ofList [(⟨[1]⟩, ⟨[2]⟩)])], .empty,
    ⟨"/backups", some (.ofList [("nightly", .directory), ("weekly", .file [10])]),
      .ofList [("weekly", .write 3 "no space left on device")]⟩⟩

/-- Both exports have begun a file when they fail, and the second one has cut it off. -/
theorem failed_apply_blockedStore :
    ((blockedStore.apply ⟨"", .exportBackup "a" "nightly"⟩).1 =
        .error (.backup "finalize backup file: is a directory") ∧
      (blockedStore.apply ⟨"", .exportBackup "a" "nightly"⟩).2.backups ≠ blockedStore.backups ∧
      (blockedStore.apply ⟨"", .exportBackup "a" "nightly"⟩).2.buckets = blockedStore.buckets ∧
      (blockedStore.apply ⟨"", .exportBackup "a" "nightly"⟩).2.backups.listing.get? "nightly" =
        some .directory) ∧
    (blockedStore.apply ⟨"", .exportBackup "a" "weekly"⟩).1 =
        .error (.backup "write backup entry: no space left on device") ∧
      (blockedStore.apply ⟨"", .exportBackup "a" "weekly"⟩).2.backups.content? "weekly.partial" =
        some ((line (⟨[1]⟩, ⟨[2]⟩)).take 3) ∧
      (blockedStore.apply ⟨"", .exportBackup "a" "weekly"⟩).2.backups.listing.get? "weekly" =
        some (.file [10]) := by
  have hnightly : (blockedStore.apply ⟨"", .exportBackup "a" "nightly"⟩).1 =
      .error (.backup "finalize backup file: is a directory") := by decide +kernel
  have hweekly : (blockedStore.apply ⟨"", .exportBackup "a" "weekly"⟩).1 =
      .error (.backup "write backup entry: no space left on device") := by decide +kernel
  obtain ⟨hbuckets, -, -, hfiles⟩ := failed_apply hnightly nofun
  obtain ⟨-, -, -, hkept⟩ := failed_apply hweekly nofun
  exact ⟨⟨hnightly, by decide +kernel, hbuckets, (hfiles "a" "nightly" rfl).1⟩, hweekly,
    by decide +kernel, (hkept "a" "weekly" rfl).1⟩

end Store

end BucketCluster
