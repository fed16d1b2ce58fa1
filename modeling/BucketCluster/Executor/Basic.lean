import BucketCluster.Answer
import BucketCluster.Executor.Queue

/-!
# Executors

An executor runs jobs with a fixed number of workers.  Whoever submits a job gets
a number for it and finds the reply under that number later.

Between the queue and the work there is a gate.  A worker that has taken a job
looks at the mode of the executor before it starts: while the executor is paused
it sleeps at the gate, and after a shutdown it answers the job without running
it.  The gate counts the jobs that have not passed it (`queued`) and those that
have and are not finished (`active`).

Sleepers are woken by calls: `resumptions` counts the calls to the workers at the
gate, `idlings` those to the callers of a pause.  A sleeper remembers the count
at which it began to listen and is awake once the count is higher, so a call
between listening and falling asleep is not missed.

This module holds the parts; `Executor.Step` says how they move.
-/

namespace BucketCluster

/-! ## Modes -/

/-- Whether an executor starts jobs. -/
inductive Mode where
  | running
  /-- Takes jobs and starts none. -/
  | paused
  /-- Takes no jobs and starts none, for good. -/
  | shutdown
deriving DecidableEq, Repr

def Mode.name : Mode → String
  | running => "Running"
  | paused => "Paused"
  | shutdown => "Shutdown"

/-- What an executor reports of itself. -/
structure ExecutorStats where
  mode : Mode
  queued : Nat
  active : Nat
  workers : Nat
deriving DecidableEq, Repr

/-! ## Jobs -/

/-- How the work on a job ended. -/
inductive Outcome where
  | answered (reply : Reply)
  | crashed (reason : String)

/-- The reply to the submitter; a crash is one, too. -/
def Outcome.reply : Outcome → Reply
  | answered r => r
  | crashed reason => .error (.panicked reason)

/-- The work on a job: what it makes of the store, or `none` as long as it cannot
go on.  A crash of the work is an outcome like others.  A handler that crashes earlier,
while it sets the work up, would take the worker with it; this is left out, because the
handler of a node does nothing then that could crash. -/
abbrev Handler (σ J : Type) := J → σ → Option (Outcome × σ)

/-- A job with the number that its submitter knows it by. -/
structure Ticket (J : Type) where
  number : Nat
  job : J
deriving DecidableEq, Repr

/-- What became of a call to submit a job. -/
inductive Submission (J : Type) where
  /-- Counted at the gate, and not in the queue yet. -/
  | entering (job : J)
  | accepted (job : J)
  /-- The executor was shut down. -/
  | rejected (job : J)
deriving DecidableEq, Repr

/-! ## Workers -/

/-- What a worker is at. -/
inductive Worker (J : Type) where
  | idle
  /-- Has taken a job and goes to the gate. -/
  | arrived (t : Ticket J)
  /-- Will hear the calls after the first `heard`; has not looked at the mode. -/
  | listening (t : Ticket J) (heard : Nat)
  /-- Found the executor paused. -/
  | asleep (t : Ticket J) (heard : Nat)
  /-- Found the executor shut down. -/
  | refused (t : Ticket J)
  /-- Passed the gate. -/
  | admitted (t : Ticket J)
  | running (t : Ticket J)
  /-- Has the reply and has not sent it. -/
  | handled (t : Ticket J) (reply : Reply)
  | replied (t : Ticket J)
  | stopped

/-- The worker is between the gate and the end of its job. -/
def Worker.isActive {J : Type} : Worker J → Bool
  | .admitted _ => true
  | .running _ => true
  | .handled .. => true
  | .replied _ => true
  | _ => false

def Worker.isStopped {J : Type} : Worker J → Bool
  | .stopped => true
  | _ => false

/-! ## Calls of those who run the node -/

/-- How far a call has come. -/
inductive Call where
  /-- The mode has been looked at. -/
  | pauseEntered
  /-- Will hear the calls after the first `heard`; has not looked at the gate. -/
  | pauseListening (heard : Nat)
  /-- Found active jobs. -/
  | pauseAsleep (heard : Nat)
  | pauseReturned
  /-- The executor runs again; the workers have not been called. -/
  | resumeEntered
  | resumeReturned
  /-- No job starts any more; the queue is still open. -/
  | shutdownEntered
  /-- The queue is closed; the workers have not been called. -/
  | shutdownClosed
  /-- Waits until all workers have stopped. -/
  | shutdownJoining
  | shutdownReturned
deriving DecidableEq, Repr

def Call.hasReturned : Call → Bool
  | pauseReturned => true
  | resumeReturned => true
  | shutdownReturned => true
  | _ => false

/-! ## The executor -/

/-- An executor of jobs `J` over a store `σ`, with all that happened so far. -/
structure Executor (σ J : Type) where
  store : σ
  mode : Mode
  queued : Nat
  active : Nat
  resumptions : Nat
  idlings : Nat
  queue : AdmissionQueue (Ticket J)
  workers : List (Worker J)
  /-- Every call to submit a job; its place is the number of the job. -/
  submissions : List (Submission J)
  /-- Every other call. -/
  calls : List Call
  /-- The jobs in the order in which they got into the queue. -/
  pushed : List Nat
  /-- The jobs in the order in which the work on them began. -/
  started : List Nat
  /-- The replies in the order in which they were sent. -/
  replies : List (Nat × Reply)

namespace Executor

variable {σ J : Type}

/-- A new executor with the given number of workers, but at least one. -/
def start (workers : Nat) (store : σ) : Executor σ J where
  store := store
  mode := .running
  queued := 0
  active := 0
  resumptions := 0
  idlings := 0
  queue := .empty
  workers := List.replicate (max workers 1) .idle
  submissions := []
  calls := []
  pushed := []
  started := []
  replies := []

def stats (x : Executor σ J) : ExecutorStats := ⟨x.mode, x.queued, x.active, x.workers.length⟩

/-- What the submitter of a job has heard. -/
def reply? (x : Executor σ J) (number : Nat) : Option Reply :=
  match x.submissions[number]? with
  | some (.rejected _) => some (.error .shutdown)
  | some (.accepted _) => x.replies.lookup number
  | _ => none

end Executor

end BucketCluster
