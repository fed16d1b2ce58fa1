/-!
# Admission queues

Jobs wait for a worker in the order in which they came.  A queue takes every job
until it is closed; what it holds by then can still be taken out.
-/

namespace BucketCluster

/-- Jobs that wait, the oldest first. -/
structure AdmissionQueue (α : Type) where
  waiting : List α
  isOpen : Bool
deriving DecidableEq, Repr

/-- What taking a job out comes to. -/
inductive AdmissionQueue.Pop (α : Type) where
  | job (job : α) (rest : AdmissionQueue α)
  /-- There is none yet. -/
  | notYet
  /-- There is none and none will come. -/
  | drained

namespace AdmissionQueue

variable {α : Type}

def empty : AdmissionQueue α := ⟨[], true⟩

/-- Adds a job at the end; a closed queue hands it back. -/
def push (q : AdmissionQueue α) (job : α) : Except α (AdmissionQueue α) :=
  if q.isOpen then .ok { q with waiting := q.waiting ++ [job] } else .error job

/-- Takes the oldest job. -/
def pop (q : AdmissionQueue α) : Pop α :=
  match q.waiting with
  | job :: rest => .job job { q with waiting := rest }
  | [] => if q.isOpen then .notYet else .drained

/-- Takes no more jobs. -/
def close (q : AdmissionQueue α) : AdmissionQueue α := { q with isOpen := false }

end AdmissionQueue

end BucketCluster
