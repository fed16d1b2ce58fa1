import BucketCluster.CommandLine
import BucketCluster.Operators.Builtin
import BucketCluster.Service

/-!
# The program

Runs all nodes of an ensemble in one process and answers for one of them.  Every
line of input is a request, a path and after a blank its body; every line of
output is the answer, with its status in front.  Bodies that nodes would send
each other are spelled in hexadecimal.  Backups are files in the backup
directory.
-/

open BucketCluster

namespace BucketCluster.Program

/-! ## Lines -/

/-- The path and the body of a request. -/
def request (line : String) : String × Bytes :=
  match Text.cut ' ' (Text.trim line) with
  | some (path, body) =>
    let bytes := Utf8.encode body
    (path, if path = Service.internalPath then (Bytes.ofHex? bytes).getD bytes else bytes)
  | none => (Text.trim line, [])

/-- The line of an answer. -/
def answerLine : Option Response → String
  | some r =>
    let body := if r.contentType = Service.binaryType then Bytes.hex r.body else r.body
    s!"{r.status} " ++ Utf8.lossy body
  | none => "202 "

/-! ## Backups -/

/-- The backup that a request reads or writes, if it may. -/
def backup? (path : String) (body : Bytes) : Option String := do
  guard (path = Service.commandPath)
  let c ← (Command.schema.parse body).toOption
  let name ← c.operation.backup?
  guard (BackupDirectory.isBackupName name)
  some name

/-- Takes a backup from its file. -/
def loadBackup (directory node name : String) (n : Network) : IO Network := do
  try
    let content ← IO.FS.readBinFile (directory ++ "/" ++ name)
    return n.modifyStore node fun s =>
      { s with backups := s.backups.place name (.file content.toList) }
  catch _ => return n

/-- Brings a backup into its file. -/
def saveBackup (directory node name : String) (n : Network) : IO Unit := do
  match (n.store? node).bind (·.backups.content? name) with
  | some content =>
    IO.FS.createDirAll directory
    IO.FS.writeBinFile (directory ++ "/" ++ name) ⟨content.toArray⟩
  | none => return

/-! ## The loop -/

/-- Answers one request. -/
def serve (directory : String) (r : Router) (n : Network) (line : String) : IO Network := do
  let (path, body) := request line
  let name := backup? path body
  let n ← match name with
    | some name => loadBackup directory r.self.name name n
    | none => pure n
  let (response, n) := Service.answer n r path body
  if let some name := name then saveBackup directory r.self.name name n
  IO.println (answerLine response)
  (← IO.getStdout).flush
  return n

/-- Answers requests until there are no more. -/
partial def serveAll (directory : String) (r : Router) (n : Network) : IO Unit := do
  let line ← (← IO.getStdin).getLine
  if line.isEmpty then return
  let n ← serve directory r n line
  serveAll directory r n

/-- Runs the node that the arguments describe. -/
def run (args : NodeArguments) : IO UInt32 := do
  let content ← try (some <$> IO.FS.readBinFile args.ensemble) catch _ => pure none
  match Ensemble.ofFile (content.map (·.toList)) with
  | .error e =>
    IO.eprintln e.message
    return 1
  | .ok e =>
    let self : Node := ⟨args.name, args.bind, ⟨args.cluster, true⟩, true⟩
    let store := Store.empty .builtin (.absent args.backupDirectory)
    let n := Network.ofEnsemble e args.name (.start args.workers store)
    serveAll args.backupDirectory ⟨self, .ofEnsemble e self, .builtin⟩ n
    return 0

end BucketCluster.Program

def main (args : List String) : IO UInt32 := do
  match CommandLine.parse args with
  | .ok args => Program.run args
  | .error e =>
    IO.eprintln e.message
    return e.exitCode
