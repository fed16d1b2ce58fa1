import BucketCluster.Executor.Basic

/-!
# Steps of an executor

The atomic steps, each under the lock or inside the queue operation that makes it
atomic.  Whoever submits, pauses, resumes or shuts down takes a first step from
outside; from then on workers, calls and submissions move on their own, in any
order.  `step` is `none` where the one asked to move has to wait.

Only a push that is refused does two things, one after the other: the queue hands the
job back, and then the count at the gate is taken back.  They are one step here, at
the time of the second: the first leaves no trace, and a queue that hands a job back
once does so at any later time (`push_of_closed`).
-/

namespace BucketCluster

/-- Who moves. -/
inductive Executor.Event (J : Type) where
  /-- A job is counted at the gate. -/
  | submit (job : J)
  /-- The job with the given number gets into the queue. -/
  | push (number : Nat)
  | worker (i : Nat)
  | pause
  | resume
  | shutdown
  | call (i : Nat)
deriving DecidableEq, Repr

namespace Executor

variable {σ J : Type}

/-! ## Submitting -/

def submit (x : Executor σ J) (job : J) : Executor σ J :=
  match x.mode with
  | .shutdown => { x with submissions := x.submissions ++ [.rejected job] }
  | _ => { x with submissions := x.submissions ++ [.entering job], queued := x.queued + 1 }

def push (x : Executor σ J) (number : Nat) : Option (Executor σ J) :=
  match x.submissions[number]? with
  | some (.entering job) =>
    match x.queue.push ⟨number, job⟩ with
    | .ok queue =>
      some { x with
        queue := queue
        submissions := x.submissions.set number (.accepted job)
        pushed := x.pushed ++ [number] }
    | .error _ =>
      some { x with
        submissions := x.submissions.set number (.rejected job)
        queued := x.queued - 1 }
  | _ => none

/-! ## Workers -/

/-- A worker changes what it is at, and nothing else happens. -/
def setWorker (x : Executor σ J) (i : Nat) (w : Worker J) : Executor σ J :=
  { x with workers := x.workers.set i w }

/-- The worker looks at the mode: it passes the gate, turns away, or sleeps. -/
def lookAtMode (x : Executor σ J) (i : Nat) (t : Ticket J) (heard : Nat) : Executor σ J :=
  match x.mode with
  | .running => { x.setWorker i (.admitted t) with queued := x.queued - 1, active := x.active + 1 }
  | .shutdown => { x.setWorker i (.refused t) with queued := x.queued - 1 }
  | .paused => x.setWorker i (.asleep t heard)

/-- The worker sends a reply. -/
def sendReply (x : Executor σ J) (i : Nat) (w : Worker J) (number : Nat) (r : Reply) :
    Executor σ J :=
  { x.setWorker i w with replies := x.replies ++ [(number, r)] }

/-- The worker is done with its job; when no other one is active, the callers of
a pause are called. -/
def finish (x : Executor σ J) (i : Nat) : Executor σ J :=
  { x.setWorker i .idle with
    active := x.active - 1
    idlings := if x.active - 1 = 0 then x.idlings + 1 else x.idlings }

/-- The next step of a worker. -/
def moveWorker (run : Handler σ J) (x : Executor σ J) (i : Nat) : Worker J → Option (Executor σ J)
  | .idle =>
    match x.queue.pop with
    | .job t rest => some { x.setWorker i (.arrived t) with queue := rest }
    | .notYet => none
    | .drained => some (x.setWorker i .stopped)
  | .arrived t => some (x.setWorker i (.listening t x.resumptions))
  | .listening t heard => some (x.lookAtMode i t heard)
  | .asleep t heard => if heard < x.resumptions then some (x.setWorker i (.arrived t)) else none
  | .refused t => some (x.sendReply i .idle t.number (.error .shutdown))
  | .admitted t => some { x.setWorker i (.running t) with started := x.started ++ [t.number] }
  | .running t =>
    match run t.job x.store with
    | some (outcome, store) => some { x.setWorker i (.handled t outcome.reply) with store := store }
    | none => none
  | .handled t r => some (x.sendReply i (.replied t) t.number r)
  | .replied _ => some (x.finish i)
  | .stopped => none

/-! ## Calls -/

/-- A call gets further, and nothing else happens. -/
def setCall (x : Executor σ J) (i : Nat) (c : Call) : Executor σ J :=
  { x with calls := x.calls.set i c }

def addCall (x : Executor σ J) (c : Call) : Executor σ J := { x with calls := x.calls ++ [c] }

def pause (x : Executor σ J) : Executor σ J :=
  match x.mode with
  | .running => { x.addCall .pauseEntered with mode := .paused }
  | _ => x.addCall .pauseEntered

def resume (x : Executor σ J) : Executor σ J :=
  match x.mode with
  | .paused => { x.addCall .resumeEntered with mode := .running }
  | _ => x.addCall .resumeReturned

def shutdown (x : Executor σ J) : Executor σ J :=
  match x.mode with
  | .shutdown => x.addCall .shutdownReturned
  | _ => { x.addCall .shutdownEntered with mode := .shutdown }

/-- The next step of a call. -/
def moveCall (x : Executor σ J) (i : Nat) : Call → Option (Executor σ J)
  | .pauseEntered => some (x.setCall i (.pauseListening x.idlings))
  | .pauseListening heard =>
    some (x.setCall i (if x.active = 0 then .pauseReturned else .pauseAsleep heard))
  | .pauseAsleep heard => if heard < x.idlings then some (x.setCall i .pauseEntered) else none
  | .resumeEntered => some { x.setCall i .resumeReturned with resumptions := x.resumptions + 1 }
  | .shutdownEntered => some { x.setCall i .shutdownClosed with queue := x.queue.close }
  | .shutdownClosed => some { x.setCall i .shutdownJoining with resumptions := x.resumptions + 1 }
  | .shutdownJoining =>
    if x.workers.all Worker.isStopped then some (x.setCall i .shutdownReturned) else none
  | .pauseReturned => none
  | .resumeReturned => none
  | .shutdownReturned => none

/-! ## All steps -/

/-- One step. -/
def step (run : Handler σ J) (x : Executor σ J) : Event J → Option (Executor σ J)
  | .submit job => some (x.submit job)
  | .push number => x.push number
  | .worker i => x.workers[i]? >>= x.moveWorker run i
  | .pause => some x.pause
  | .resume => some x.resume
  | .shutdown => some x.shutdown
  | .call i => x.calls[i]? >>= x.moveCall i

/-- The executor after some steps from the start. -/
inductive Reachable (run : Handler σ J) (workers : Nat) (store : σ) : Executor σ J → Prop where
  | start : Reachable run workers store (Executor.start workers store)
  | step {x y : Executor σ J} {e : Event J} :
      Reachable run workers store x → x.step run e = some y → Reachable run workers store y

end Executor

end BucketCluster
