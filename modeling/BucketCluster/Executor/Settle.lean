import BucketCluster.Executor.Step

/-!
# Settling

Lets an executor move until nothing can move any more.  The workers go first, all
together and one step at a time; submissions and calls move when no worker can.
A caller of a pause that is woken between two jobs of a busy worker therefore
finds that worker at the next job.
-/

namespace BucketCluster.Executor

variable {σ J : Type}

/-- The steps of the workers. -/
def workerEvents (x : Executor σ J) : List (Event J) := (List.range x.workers.length).map .worker

/-- The step of a submission that is on its way. -/
def enters? : Submission J × Nat → Option (Event J)
  | (.entering _, number) => some (.push number)
  | _ => none

/-- The steps of submissions and calls. -/
def otherEvents (x : Executor σ J) : List (Event J) :=
  x.submissions.zipIdx.filterMap enters? ++ (List.range x.calls.length).map .call

/-- Takes the steps that can be taken. -/
def tryAll (run : Handler σ J) (x : Executor σ J) (es : List (Event J)) : Executor σ J :=
  es.foldl (fun x e => (x.step run e).getD x) x

/-- A round: every worker that can moves, or else the first of the others. -/
def round (run : Handler σ J) (x : Executor σ J) : Option (Executor σ J) :=
  if x.workerEvents.any fun e => (x.step run e).isSome then some (x.tryAll run x.workerEvents)
  else x.otherEvents.findSome? (x.step run)

/-- At most so many rounds. -/
def rounds (run : Handler σ J) : Nat → Executor σ J → Executor σ J
  | 0, x => x
  | n + 1, x =>
    match x.round run with
    | some y => y.rounds run n
    | none => x

/-- More rounds than can follow without a push from outside: every job takes ten
steps at most, every worker as many for the job that it holds, and every call
four for each time that it is woken, which is once for each job. -/
def effort (x : Executor σ J) : Nat :=
  let load := x.workers.length + x.submissions.length + 1
  10 * load + 4 * (x.calls.length + 1) * load

/-- The executor when nothing can move any more. -/
def settle (run : Handler σ J) (x : Executor σ J) : Executor σ J := x.rounds run x.effort

end BucketCluster.Executor
