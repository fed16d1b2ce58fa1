import BucketCluster.Message

/-!
# Backups

A backup is a file with one JSON object per line and entry, in the order of the
keys, under a plain name in the backup directory of its node.  It is written
next to its final name and renamed when complete.  Reading skips blank lines and
fails at the first line that is no entry.

The directory is a value: a map from names to files and directories, absent
until something creates it.  Which exports the file system refuses to carry out,
and at which call, is part of it.
-/

namespace BucketCluster

/-- What a name stands for in a directory. -/
inductive FileEntry where
  | file (content : Bytes)
  | directory
deriving DecidableEq, Repr

/-- The call of the file system at which an export fails. -/
inductive ExportFault where
  /-- The directory cannot be created. -/
  | directory (reason : String)
  /-- The file cannot be opened. -/
  | create (reason : String)
  /-- The file takes so many bytes; what a line adds is refused. -/
  | write (room : Nat) (reason : String)
  /-- The file takes so many bytes; what is left in the buffer is refused. -/
  | flush (room : Nat) (reason : String)
  /-- The file cannot be given its final name. -/
  | rename (reason : String)
deriving DecidableEq, Repr

/-- The directory that holds the backups of a node. -/
structure BackupDirectory where
  path : String
  /-- `none` as long as the directory has not been created. -/
  entries : Option (SortedMap String FileEntry)
  /-- The exports that the file system refuses, by the names of the backups. -/
  faults : SortedMap String ExportFault
deriving DecidableEq

namespace BackupDirectory

/-- A directory that does not exist yet, and can be created. -/
def absent (path : String) : BackupDirectory := ⟨path, none, ∅⟩

/-- What stands under each name. -/
def listing (dir : BackupDirectory) : SortedMap String FileEntry := dir.entries.getD ∅

/-- The directory with another content; it exists from now on. -/
def withListing (dir : BackupDirectory) (es : SortedMap String FileEntry) : BackupDirectory :=
  { dir with entries := some es }

/-- Puts a file or directory there, in place of what had the name. -/
def place (dir : BackupDirectory) (name : String) (entry : FileEntry) : BackupDirectory :=
  dir.withListing (dir.listing.insert name entry)

/-- The content of the file with the given name. -/
def content? (dir : BackupDirectory) (name : String) : Option Bytes :=
  match dir.listing.get? name with
  | some (.file bs) => some bs
  | _ => none

/-! ## Names -/

/-- Backups have plain names: not empty, not `.` or `..`, without slashes. -/
def isBackupName (name : String) : Bool :=
  !name.isEmpty && name != "." && name != ".." &&
    name.toList.all fun c => c != '/' && c != '\\'

/-- Refuses names that are not plain. -/
def checkName (name : String) : Except StoreError Unit :=
  if isBackupName name then .ok () else .error (.backup s!"invalid backup name '{name}'")

/-- A file system takes names of at most 255 bytes, NUL not among them. -/
def isUsable (name : String) : Bool :=
  (Utf8.encode name).length ≤ 255 && name.toList.all (· != '\x00')

/-! ## Lines -/

/-- The shape of a line. -/
def entrySchema : Schema (Key × Document) :=
  .record
    (.field "key" .key .none <|
     .field "value" Document.schema .none .nil)
    (fun (k, d, _) => (k, d)) (fun e => (e.1, e.2, ()))

/-- The line of an entry, line feed included. -/
def line (e : Key × Document) : Bytes := (entrySchema.write e).getD [] ++ [10]

/-- Cuts at line feeds.  A carriage return in front of a line feed goes with it,
and nothing follows the last line feed unless there is something. -/
def linesAux (current : Bytes) : Bytes → List Bytes
  | [] => if current.isEmpty then [] else [current.reverse]
  | b :: bs =>
    if b = 10 then
      let current := match current with
        | 13 :: rest => rest
        | bs => bs
      current.reverse :: linesAux [] bs
    else linesAux (b :: current) bs

/-- The lines of a file. -/
def lines (bs : Bytes) : List Bytes := linesAux [] bs

/-- The entries of the lines from number `n` on. -/
def readLines (place : String) : Nat → List Bytes → Except StoreError (List (Key × Document))
  | _, [] => .ok []
  | n, bs :: more =>
    match Utf8.decode? bs with
    | none => .error (.backup "read backup file: line is not UTF-8")
    | some text =>
      if (Text.trim text).isEmpty then readLines place (n + 1) more
      else match entrySchema.parse bs with
        | .error fault => .error (.malformed s!"{place}:{n}: {fault.message}")
        | .ok e => (readLines place (n + 1) more).map (e :: ·)

/-! ## Exporting and importing -/

/-- The name under which a backup is written before it is complete. -/
def partialName (name : String) : String := name ++ ".partial"

/-- Why the directory cannot be created for an export. -/
def directoryRefusal? (dir : BackupDirectory) (name : String) : Option String :=
  match dir.faults.get? name with
  | some (.directory reason) => some s!"create backup dir: {reason}"
  | _ => none

/-- Why the file of an export cannot be opened. -/
def createRefusal? (dir : BackupDirectory) (name : String) : Option String :=
  if !isUsable (partialName name) then some "create backup file: name is not usable"
  else if dir.listing.get? (partialName name) = some .directory then
    some "create backup file: is a directory"
  else match dir.faults.get? name with
    | some (.create reason) => some s!"create backup file: {reason}"
    | _ => none

/-- Why the file of an export does not take the content, and how much of it. -/
def writeRefusal? (dir : BackupDirectory) (name : String) (content : Bytes) :
    Option (Bytes × String) :=
  match dir.faults.get? name with
  | some (.write room reason) =>
    if room < content.length then some (content.take room, s!"write backup entry: {reason}")
    else none
  | some (.flush room reason) =>
    if room < content.length then some (content.take room, s!"flush backup file: {reason}")
    else none
  | _ => none

/-- Why the file of an export cannot be given its final name. -/
def renameRefusal? (dir : BackupDirectory) (name : String) : Option String :=
  if dir.listing.get? name = some .directory then some "finalize backup file: is a directory"
  else match dir.faults.get? name with
    | some (.rename reason) => some s!"finalize backup file: {reason}"
    | _ => none

/-- Writes the entries as the backup with the given name, and counts them. -/
def exportEntries (dir : BackupDirectory) (name : String) (entries : List (Key × Document)) :
    Except StoreError Nat × BackupDirectory :=
  match checkName name with
  | .error e => (.error e, dir)
  | .ok () =>
    match dir.directoryRefusal? name with
    | some reason => (.error (.backup reason), dir)
    | none =>
      match dir.createRefusal? name with
      | some reason => (.error (.backup reason), dir.withListing dir.listing)
      | none =>
        let scratch := partialName name
        let content := entries.flatMap line
        match dir.writeRefusal? name content with
        | some (written, reason) => (.error (.backup reason), dir.place scratch (.file written))
        | none =>
          match dir.renameRefusal? name with
          | some reason => (.error (.backup reason), dir.place scratch (.file content))
          | none =>
            (.ok entries.length,
              dir.withListing ((dir.listing.erase scratch).insert name (.file content)))

/-- Reads the entries of the backup with the given name. -/
def importEntries (dir : BackupDirectory) (name : String) :
    Except StoreError (List (Key × Document)) := do
  checkName name
  match dir.listing.get? name with
  | none => .error (.backup "open backup file: no such file")
  | some .directory => .error (.backup "read backup file: is a directory")
  | some (.file bs) => readLines s!"{dir.path}/{name}" 1 (lines bs)

end BackupDirectory

end BucketCluster
