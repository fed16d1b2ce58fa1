import BucketCluster.Routing.SocketAddress

/-!
# Command line

How a node is told who it is.  Every setting is a long option with one value,
given as `--option value` or `--option=value`; a value that begins with a dash
needs the second form.  The line is read from left to right, and the value of an
option is looked at when the next known option or the end of the line shows that
it is complete; an unknown option is reported before that.
-/

namespace BucketCluster

/-- How a node is set up. -/
structure NodeArguments where
  name : String
  cluster : String
  bind : SocketAddress
  /-- The file with the ensemble. -/
  ensemble : String
  workers : Nat
  backupDirectory : String
  logLevel : String
deriving DecidableEq, Repr

/-- Why there are no arguments: two of the causes are requests to be told something. -/
inductive ArgumentError where
  | missingRequired
  | unknownArgument
  /-- A value does not parse. -/
  | invalidValue
  /-- A value is missing, or empty where a path is wanted. -/
  | missingValue
  /-- An option that takes no value has one. -/
  | unexpectedValue
  /-- An option is given twice. -/
  | repeated
  | helpWanted
  | versionWanted
deriving DecidableEq, Repr

namespace ArgumentError

def message : ArgumentError → String
  | missingRequired => "a node needs --name, --cluster and --ensemble"
  | unknownArgument => "unexpected argument"
  | invalidValue => "a value is not valid for its option"
  | missingValue => "an option needs a value"
  | unexpectedValue => "an option takes no value"
  | repeated => "an option is given twice"
  | helpWanted =>
    "options: --name, --cluster, --bind, --ensemble, --workers, --backup-dir, --log-level"
  | versionWanted => "0.1.0"

/-- What the program exits with: being told something is no failure. -/
def exitCode : ArgumentError → UInt32
  | helpWanted => 0
  | versionWanted => 0
  | _ => 2

end ArgumentError

namespace CommandLine

/-! ## Options -/

/-- The options with a value. -/
inductive Setting where
  | name
  | cluster
  | bind
  | ensemble
  | workers
  | backupDirectory
  | logLevel
deriving DecidableEq, Repr

/-- The option of the given name. -/
def setting? : String → Option Setting
  | "name" => some .name
  | "cluster" => some .cluster
  | "bind" => some .bind
  | "ensemble" => some .ensemble
  | "workers" => some .workers
  | "backup-dir" => some .backupDirectory
  | "log-level" => some .logLevel
  | _ => none

/-- The option without a value that has the given name. -/
def request? : String → Option ArgumentError
  | "help" => some .helpWanted
  | "version" => some .versionWanted
  | _ => none

/-- The option without a value that has the given letter. -/
def shortRequest? : Char → Option ArgumentError
  | 'h' => some .helpWanted
  | 'V' => some .versionWanted
  | _ => none

/-! ## Values -/

/-- The settings read so far. -/
structure Given where
  name : Option String := none
  cluster : Option String := none
  bind : Option SocketAddress := none
  ensemble : Option String := none
  workers : Option Nat := none
  backupDirectory : Option String := none
  logLevel : Option String := none

/-- A count: decimal digits, perhaps behind a plus sign, below 2^64. -/
def count? (s : String) : Option Nat :=
  let digits := match s.toList with
    | '+' :: ds => ds
    | ds => ds
  if digits.isEmpty || digits.any (fun c => !SocketAddress.isDigit c) then none
  else
    let n := SocketAddress.decimalValue digits
    if n < UInt64.size then some n else none

/-- A value that must be the first of its option. -/
def once {α : Type} (old : Option α) (value : Except ArgumentError α) :
    Except ArgumentError (Option α) :=
  if old.isSome then .error .repeated else value.map some

/-- A value that parses. -/
def parsed {α : Type} : Option α → Except ArgumentError α
  | some x => .ok x
  | none => .error .invalidValue

/-- A path. -/
def path (s : String) : Except ArgumentError String :=
  if s.isEmpty then .error .missingValue else .ok s

/-- Takes the value of an option. -/
def Given.take (g : Given) (value : String) : Setting → Except ArgumentError Given
  | .name => (once g.name (.ok value)).map fun x => { g with name := x }
  | .cluster => (once g.cluster (.ok value)).map fun x => { g with cluster := x }
  | .bind => (once g.bind (parsed (SocketAddress.parse? value))).map fun x => { g with bind := x }
  | .ensemble => (once g.ensemble (path value)).map fun x => { g with ensemble := x }
  | .workers => (once g.workers (parsed (count? value))).map fun x => { g with workers := x }
  | .backupDirectory =>
    (once g.backupDirectory (path value)).map fun x => { g with backupDirectory := x }
  | .logLevel => (once g.logLevel (.ok value)).map fun x => { g with logLevel := x }

/-! ## Lines -/

/-- The option that is being read: `none`, one that waits for its value, or one
with a value that has not been looked at. -/
inductive Pending where
  | none
  | waiting (s : Setting)
  | complete (s : Setting) (value : String)

/-- Looks at the value of the option that is being read. -/
def Pending.resolve (g : Given) : Pending → Except ArgumentError Given
  | none => .ok g
  | waiting _ => .error .missingValue
  | complete s value => g.take value s

/-- What an argument is by its form. -/
inductive Form where
  | long (name : String) (value : Option String)
  | short (letter : Char)
  | plain (value : String)

/-- Cuts a long option at its first equals sign. -/
def cutValue (cs : List Char) : Form :=
  let name := String.ofList (cs.takeWhile (· ≠ '='))
  match cs.dropWhile (· ≠ '=') with
  | _ :: value => .long name (some (String.ofList value))
  | [] => .long name none

/-- The form of an argument. -/
def form (arg : String) : Form :=
  match arg.toList with
  | '-' :: '-' :: cs => cutValue cs
  | '-' :: c :: _ => .short c
  | _ => .plain arg

/-- Begins or completes a long option. -/
def long (g : Given) (pending : Pending) (name : String) (value : Option String) :
    Except ArgumentError (Given × Pending) :=
  match setting? name, request? name, value with
  | some s, _, some value => do
    let g ← pending.resolve g
    let g ← g.take value s
    .ok (g, .none)
  | some s, _, none => do
    let g ← pending.resolve g
    .ok (g, .waiting s)
  | none, some _, some _ => .error .unexpectedValue
  | none, some e, none => do
    let _ ← pending.resolve g
    .error e
  | none, none, _ => .error .unknownArgument

/-- Takes one argument. -/
def argument (g : Given) (pending : Pending) : Form → Except ArgumentError (Given × Pending)
  | .long name value => long g pending name value
  | .short c =>
    match shortRequest? c with
    | some e => do
      let _ ← pending.resolve g
      .error e
    | none => .error .unknownArgument
  | .plain value =>
    match pending with
    | .waiting s => .ok (g, .complete s value)
    | _ => .error .unknownArgument

/-- Takes all arguments.  Two dashes end the options, and nothing may follow
them. -/
def arguments (g : Given) (pending : Pending) : List String → Except ArgumentError Given
  | [] => pending.resolve g
  | arg :: args =>
    if arg = "--" then
      if args.isEmpty then pending.resolve g else .error .unknownArgument
    else do
      let (g, pending) ← argument g pending (form arg)
      arguments g pending args

/-! ## Settings -/

/-- Where a node listens unless told otherwise. -/
def defaultBind : SocketAddress := .v4 [127, 0, 0, 1] 8000

/-- How many workers a node has unless told otherwise. -/
def defaultWorkers : Nat := 8

/-- The settings of a node, which needs a name, a cluster and an ensemble. -/
def Given.complete (g : Given) : Except ArgumentError NodeArguments :=
  match g.name, g.cluster, g.ensemble with
  | some name, some cluster, some ensemble =>
    .ok {
      name := name
      cluster := cluster
      bind := g.bind.getD defaultBind
      ensemble := ensemble
      workers := g.workers.getD defaultWorkers
      backupDirectory := g.backupDirectory.getD "backups"
      logLevel := g.logLevel.getD "info" }
  | _, _, _ => .error .missingRequired

/-- The settings that a command line gives. -/
def parse (args : List String) : Except ArgumentError NodeArguments := do
  let g ← arguments {} .none args
  g.complete

end CommandLine

end BucketCluster
