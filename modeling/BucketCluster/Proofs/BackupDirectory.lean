import BucketCluster.Backup
import BucketCluster.Proofs.Lists
import BucketCluster.Proofs.SortedMap

/-!
# Backup directories

What an export does to the directory, and what an import reads there.

* An export ends in one of six ways (`Exporting`): at one of its calls, or at none.  All
  that is proved about exports is a case for each of them.
* An import succeeds if every line of the file is blank or an entry (`Listed`), and then
  gives the entries, in order (`importEntries_eq_ok`).
-/

namespace BucketCluster

namespace BackupDirectory

variable {dir dir' : BackupDirectory} {name other : String} {es : List (Key × Document)}
  {r : Except StoreError Nat × BackupDirectory}

theorem listing_withListing (dir : BackupDirectory) (es : SortedMap String FileEntry) :
    (dir.withListing es).listing = es :=
  rfl

/-! ## Exports -/

/-- What an export answers, with the directory it leaves. -/
inductive Exporting (dir : BackupDirectory) (name : String) (es : List (Key × Document)) :
    Except StoreError Nat × BackupDirectory → Prop where
  | refused {e : StoreError} (hname : checkName name = .error e) :
      Exporting dir name es (.error e, dir)
  | noDirectory {reason : String} (hname : checkName name = .ok ())
      (hdirectory : dir.directoryRefusal? name = some reason) :
      Exporting dir name es (.error (.backup reason), dir)
  | notBegun {reason : String} (hname : checkName name = .ok ())
      (hdirectory : dir.directoryRefusal? name = none)
      (hcreate : dir.createRefusal? name = some reason) :
      Exporting dir name es (.error (.backup reason), dir.withListing dir.listing)
  | cutOff {written : Bytes} {reason : String} (hname : checkName name = .ok ())
      (hdirectory : dir.directoryRefusal? name = none) (hcreate : dir.createRefusal? name = none)
      (hwrite : dir.writeRefusal? name (es.flatMap line) = some (written, reason)) :
      Exporting dir name es (.error (.backup reason), dir.place (partialName name) (.file written))
  | unfinished {reason : String} (hname : checkName name = .ok ())
      (hdirectory : dir.directoryRefusal? name = none) (hcreate : dir.createRefusal? name = none)
      (hwrite : dir.writeRefusal? name (es.flatMap line) = none)
      (hrename : dir.renameRefusal? name = some reason) :
      Exporting dir name es
      (.error (.backup reason), dir.place (partialName name) (.file (es.flatMap line)))
  | finished (hname : checkName name = .ok ())
      (hdirectory : dir.directoryRefusal? name = none) (hcreate : dir.createRefusal? name = none)
      (hwrite : dir.writeRefusal? name (es.flatMap line) = none)
      (hrename : dir.renameRefusal? name = none) :
      Exporting dir name es (.ok es.length, dir.withListing
        ((dir.listing.erase (partialName name)).insert name (.file (es.flatMap line))))

theorem exporting (dir : BackupDirectory) (name : String) (es : List (Key × Document)) :
    Exporting dir name es (exportEntries dir name es) := by
  unfold exportEntries
  cases hname : checkName name with
  | error e => exact .refused hname
  | ok _ =>
    cases hdirectory : dir.directoryRefusal? name with
    | some reason => exact .noDirectory hname hdirectory
    | none =>
      cases hcreate : dir.createRefusal? name with
      | some reason => exact .notBegun hname hdirectory hcreate
      | none =>
        simp only
        cases hwrite : dir.writeRefusal? name (es.flatMap line) with
        | some refusal => exact .cutOff hname hdirectory hcreate hwrite
        | none =>
          cases hrename : dir.renameRefusal? name with
          | some reason => exact .unfinished hname hdirectory hcreate hwrite hrename
          | none => exact .finished hname hdirectory hcreate hwrite hrename

/-- Only one of them is possible. -/
theorem Exporting.exportEntries_eq (h : Exporting dir name es r) :
    exportEntries dir name es = r := by
  unfold exportEntries
  cases h with
  | refused hname => rw [hname]
  | noDirectory hname hdirectory => simp only [hname, hdirectory]
  | notBegun hname hdirectory hcreate => simp only [hname, hdirectory, hcreate]
  | cutOff hname hdirectory hcreate hwrite => simp only [hname, hdirectory, hcreate, hwrite]
  | unfinished hname hdirectory hcreate hwrite hrename =>
    simp only [hname, hdirectory, hcreate, hwrite, hrename]
  | finished hname hdirectory hcreate hwrite hrename =>
    simp only [hname, hdirectory, hcreate, hwrite, hrename]

theorem ne_partialName (name : String) : name ≠ partialName name := by
  intro h
  have hlength : name.length = name.length + ".partial".length := by
    rw [← String.length_append]
    exact congrArg String.length h
  have hsuffix : ".partial".length = 8 := rfl
  omega

theorem get?_place_of_ne (dir : BackupDirectory) (entry : FileEntry) (h : other ≠ name) :
    (dir.place name entry).listing.get? other = dir.listing.get? other :=
  SortedMap.get?_insert_of_ne _ _ h

theorem place_place (dir : BackupDirectory) (name : String) (entry entry' : FileEntry) :
    (dir.place name entry).place name entry' = dir.place name entry' := by
  have hinsert := SortedMap.insert_insert dir.listing name entry entry'
  exact congrArg dir.withListing hinsert

theorem path_exportEntries (dir : BackupDirectory) (name : String) (es : List (Key × Document)) :
    (exportEntries dir name es).2.path = dir.path := by
  have h := exporting dir name es
  generalize exportEntries dir name es = r at h
  cases h <;> rfl

/-- An export that fails has touched at most the unfinished file. -/
theorem get?_failed_export {e : StoreError} (h : (exportEntries dir name es).1 = .error e)
    (hother : other ≠ partialName name) :
    (exportEntries dir name es).2.listing.get? other = dir.listing.get? other := by
  have hexporting := exporting dir name es
  generalize exportEntries dir name es = r at h hexporting
  cases hexporting with
  | refused => rfl
  | noDirectory => rfl
  | notBegun => rfl
  | cutOff => exact get?_place_of_ne dir _ hother
  | unfinished => exact get?_place_of_ne dir _ hother
  | finished => cases h

/-- Two names are touched at most. -/
theorem get?_exportEntries (dir : BackupDirectory) (es : List (Key × Document))
    (hname : other ≠ name) (hpartial : other ≠ partialName name) :
    (exportEntries dir name es).2.listing.get? other = dir.listing.get? other := by
  cases hanswer : (exportEntries dir name es).1 with
  | error e => exact get?_failed_export hanswer hpartial
  | ok n =>
    have hexporting := exporting dir name es
    generalize exportEntries dir name es = r at hanswer hexporting
    cases hexporting with
    | finished =>
      exact (SortedMap.get?_insert_of_ne _ _ hname).trans (SortedMap.get?_erase_of_ne _ hpartial)
    | _ => cases hanswer

/-! ## Exports that come twice -/

/-- The two directories refuse the same calls, and the same names stand for directories in them. -/
structure Alike (dir dir' : BackupDirectory) (name : String) : Prop where
  faults : dir'.faults = dir.faults
  begun : dir'.listing.get? (partialName name) = some .directory ↔
    dir.listing.get? (partialName name) = some .directory
  final : dir'.listing.get? name = some .directory ↔ dir.listing.get? name = some .directory

theorem Alike.directoryRefusal? (h : Alike dir dir' name) :
    dir'.directoryRefusal? name = dir.directoryRefusal? name := by
  unfold BackupDirectory.directoryRefusal?
  rw [h.faults]

theorem Alike.createRefusal? (h : Alike dir dir' name) :
    dir'.createRefusal? name = dir.createRefusal? name := by
  unfold BackupDirectory.createRefusal?
  simp only [h.faults, h.begun]

theorem Alike.writeRefusal? (h : Alike dir dir' name) (content : Bytes) :
    dir'.writeRefusal? name content = dir.writeRefusal? name content := by
  unfold BackupDirectory.writeRefusal?
  rw [h.faults]

theorem Alike.renameRefusal? (h : Alike dir dir' name) :
    dir'.renameRefusal? name = dir.renameRefusal? name := by
  unfold BackupDirectory.renameRefusal?
  simp only [h.faults, h.final]

/-- A file that may be opened stands for no directory. -/
theorem begun_of_createRefusal? (h : dir.createRefusal? name = none) :
    dir.listing.get? (partialName name) ≠ some .directory := by
  intro hbegun
  unfold createRefusal? at h
  rw [if_pos hbegun] at h
  split at h <;> cases h

theorem final_of_renameRefusal? (h : dir.renameRefusal? name = none) :
    dir.listing.get? name ≠ some .directory := by
  intro hfinal
  unfold renameRefusal? at h
  rw [if_pos hfinal] at h
  cases h

/-- What an unfinished file holds does not matter. -/
theorem alike_place (h : dir.createRefusal? name = none) (bs : Bytes) :
    Alike dir (dir.place (partialName name) (.file bs)) name where
  faults := rfl
  begun := by
    have hfile : (dir.place (partialName name) (.file bs)).listing.get? (partialName name) =
        some (.file bs) := SortedMap.get?_insert_self _ _ _
    rw [hfile]
    exact ⟨nofun, fun hbegun => absurd hbegun (begun_of_createRefusal? h)⟩
  final := by rw [get?_place_of_ne dir _ (ne_partialName name)]

/-- An export in the directory it has left does what it did. -/
theorem exportEntries_again (dir : BackupDirectory) (name : String) (es : List (Key × Document)) :
    exportEntries (exportEntries dir name es).2 name es = exportEntries dir name es := by
  have h := exporting dir name es
  generalize exportEntries dir name es = r at h
  apply Exporting.exportEntries_eq
  cases h with
  | refused hname => exact .refused hname
  | noDirectory hname hdirectory => exact .noDirectory hname hdirectory
  | notBegun hname hdirectory hcreate =>
    have hagain : Exporting (dir.withListing dir.listing) name es _ :=
      .notBegun hname hdirectory hcreate
    exact hagain
  | @cutOff written reason hname hdirectory hcreate hwrite =>
    have halike := alike_place hcreate written
    have hagain := Exporting.cutOff hname (halike.directoryRefusal?.trans hdirectory)
      (halike.createRefusal?.trans hcreate) ((halike.writeRefusal? _).trans hwrite)
    rwa [place_place] at hagain
  | @unfinished reason hname hdirectory hcreate hwrite hrename =>
    have halike := alike_place hcreate (es.flatMap line)
    have hagain := Exporting.unfinished hname (halike.directoryRefusal?.trans hdirectory)
      (halike.createRefusal?.trans hcreate) ((halike.writeRefusal? _).trans hwrite)
      (halike.renameRefusal?.trans hrename)
    rwa [place_place] at hagain
  | finished hname hdirectory hcreate hwrite hrename =>
    generalize hlisting : (dir.listing.erase (partialName name)).insert name
      (.file (es.flatMap line)) = l
    have hname' : l.get? name = some (.file (es.flatMap line)) := by
      rw [← hlisting, SortedMap.get?_insert_self]
    have hscratch : l.get? (partialName name) = none := by
      rw [← hlisting, SortedMap.get?_insert_of_ne _ _ (ne_partialName name).symm,
        SortedMap.get?_erase_self]
    have halike : Alike dir (dir.withListing l) name :=
      { faults := rfl
        begun := by
          rw [listing_withListing, hscratch]
          exact ⟨nofun, fun hbegun => absurd hbegun (begun_of_createRefusal? hcreate)⟩
        final := by
          rw [listing_withListing, hname']
          exact ⟨nofun, fun hfinal => absurd hfinal (final_of_renameRefusal? hrename)⟩ }
    have hagain := Exporting.finished hname (halike.directoryRefusal?.trans hdirectory)
      (halike.createRefusal?.trans hcreate) ((halike.writeRefusal? _).trans hwrite)
      (halike.renameRefusal?.trans hrename)
    rwa [listing_withListing, SortedMap.erase_of_get? hscratch,
      SortedMap.insert_of_get? hname'] at hagain

/-! ## Imports -/

/-- Reading a backup looks at its name alone. -/
theorem importEntries_congr (hpath : dir'.path = dir.path)
    (h : dir'.listing.get? name = dir.listing.get? name) :
    importEntries dir' name = importEntries dir name := by
  unfold importEntries
  rw [hpath, h]

/-- A line of blanks, which an import passes over. -/
def isBlankLine (bs : Bytes) : Bool := (Utf8.decode? bs).any fun text => (Text.trim text).isEmpty

/-- Of the lines those that are not blank hold these entries, in this order. -/
inductive Listed : List Bytes → List (Key × Document) → Prop where
  | nil : Listed [] []
  | blank {bs : Bytes} {ls : List Bytes} {es : List (Key × Document)}
      (hblank : isBlankLine bs = true) (h : Listed ls es) : Listed (bs :: ls) es
  | entry {bs : Bytes} {ls : List Bytes} {e : Key × Document} {es : List (Key × Document)}
      (htext : (Utf8.decode? bs).isSome = true) (hblank : isBlankLine bs = false)
      (hentry : entrySchema.parse bs = .ok e) (h : Listed ls es) : Listed (bs :: ls) (e :: es)

/-- There is an entry for each line that is not blank. -/
theorem Listed.length {ls : List Bytes} (h : Listed ls es) :
    es.length = ls.countP fun bs => !isBlankLine bs := by
  induction h with
  | nil => rfl
  | blank hblank _ ih => rw [List.countP_cons_of_neg (by simp [hblank]), ih]
  | entry _ hblank _ _ ih => rw [List.countP_cons_of_pos (by simp [hblank]), ← ih, List.length_cons]

theorem Listed.readLines {ls : List Bytes} (h : Listed ls es) (place : String) (n : Nat) :
    readLines place n ls = .ok es := by
  induction h generalizing n with
  | nil => rfl
  | @blank bs ls es hblank _ ih =>
    obtain ⟨text, htext, htrim⟩ := (Option.any_eq_true _ _).1 hblank
    rw [BackupDirectory.readLines, htext]
    simp only [htrim, if_true, ih]
  | @entry bs ls e es htext hblank hentry _ ih =>
    obtain ⟨text, htext⟩ := Option.isSome_iff_exists.1 htext
    rw [isBlankLine, htext] at hblank
    have htrim : (Text.trim text).isEmpty = false := hblank
    rw [BackupDirectory.readLines, htext]
    simp only [htrim, Bool.false_eq_true, if_false, hentry, ih]
    rfl

theorem listed_of_readLines {place : String} {n : Nat} {ls : List Bytes}
    (h : readLines place n ls = .ok es) : Listed ls es := by
  induction ls generalizing n es with
  | nil =>
    cases h
    exact .nil
  | cons bs ls ih =>
    rw [readLines] at h
    cases htext : Utf8.decode? bs with
    | none =>
      rw [htext] at h
      cases h
    | some text =>
      have hblank : isBlankLine bs = (Text.trim text).isEmpty := by
        rw [isBlankLine, htext]
        rfl
      rw [htext] at h
      simp only at h
      split at h
      · next htrim => exact .blank (hblank.trans htrim) (ih h)
      · next htrim =>
        rw [Bool.not_eq_true] at htrim
        split at h
        · cases h
        · next e hentry =>
          obtain ⟨es, hes, rfl⟩ := of_map_ok h
          exact .entry (by rw [htext]; rfl) (hblank.trans htrim) hentry (ih hes)

theorem checkName_eq_ok : checkName name = .ok () ↔ isBackupName name = true := by
  unfold checkName
  cases isBackupName name <;> simp

/-- An import succeeds for a file whose lines are entries or blank. -/
theorem importEntries_eq_ok : dir.importEntries name = .ok es ↔
    isBackupName name = true ∧ ∃ bs, dir.content? name = some bs ∧ Listed (lines bs) es := by
  unfold importEntries content?
  constructor
  · intro h
    obtain ⟨_, hname, h⟩ := of_bind_ok h
    refine ⟨checkName_eq_ok.1 hname, ?_⟩
    split at h
    · cases h
    · cases h
    · next bs hfile => exact ⟨bs, by rw [hfile], listed_of_readLines h⟩
  · rintro ⟨hname, bs, hfile, hlisted⟩
    split at hfile
    · next bs' hget =>
      cases hfile
      rw [checkName_eq_ok.2 hname, hget]
      exact hlisted.readLines _ 1
    · cases hfile

end BackupDirectory

end BucketCluster
