import BucketCluster.Answer
import BucketCluster.Command

/-!
# Operators

Commands only carry the names of operators: conditions that filter documents,
comparators that order keys, and functions that compute updates.  A registry
gives names their meaning, and a name it does not hold is an error, never a
silent yes or no.

An operator is code of whoever runs the cluster and may crash.  Where it does is
part of its description: `crashes` holds of the arguments on which it aborts
instead of answering, and what it would answer there is never seen.  How long an
update function takes is part of it, too: `pace` says at which look at the clock
it finds its time over.
-/

namespace BucketCluster

/-! ## Deadlines -/

/-- How long an update may go on, as the work on it finds out: by looks at the
clock. -/
structure Deadline where
  /-- How many looks still find time; `none` if the work is done in time. -/
  looks : Option Nat
deriving DecidableEq, Repr

namespace Deadline

/-- The work is done in time. -/
def never : Deadline := ⟨none⟩

/-- The time is over from the start. -/
def past : Deadline := ⟨some 0⟩

/-- Does a look at the clock find the time over? -/
def expired (d : Deadline) : Bool := d.looks == some 0

/-- Fails once the time is over. -/
def check (d : Deadline) (function : String) : Except StoreError Unit :=
  if d.expired then .error (.timeout function) else .ok ()

/-- The deadline after one look. -/
def next (d : Deadline) : Deadline := ⟨d.looks.map (· - 1)⟩

/-- The deadline when the work is done. -/
def final (d : Deadline) : Deadline := ⟨d.looks.map fun _ => 0⟩

end Deadline

/-- The deadline of work that takes no time: only a timeout of zero is over. -/
def Update.deadline (u : Update) : Deadline := if u.milliseconds == 0 then .past else .never

/-! ## Kinds of operators -/

/-- Tests a document against an expression. -/
structure Condition where
  holds : Key → Document → String → Bool
  crashes : Key → Document → String → Bool := fun _ _ _ => false

/-- Orders two keys. -/
abbrev Comparator := Key → Key → Ordering

/-- Computes a document from the one that is stored. -/
structure UpdateFunction where
  run : Key → Document → Parameters → Deadline → Except StoreError Document
  crashes : Key → Document → Parameters → Bool := fun _ _ _ => false
  /-- When the time is over while the function works, unless it was so before. -/
  pace : Key → Document → Update → Deadline := fun _ _ _ => .never

/-- The deadline under which the function works on a stored document. -/
def UpdateFunction.deadline (f : UpdateFunction) (k : Key) (d : Document) (u : Update) : Deadline :=
  if u.milliseconds == 0 then .past else f.pace k d u

/-- What the function makes of the stored document, if it is done in time. -/
def UpdateFunction.updated (f : UpdateFunction) (k : Key) (d : Document) (u : Update) :
    Except StoreError Document := do
  let deadline := f.deadline k d u
  let d ← f.run k d u.parameters deadline
  deadline.final.check u.function
  .ok d

/-- A predicate whose condition has been looked up. -/
structure Filter where
  keeps : Key → Document → Bool
  crashes : Key → Document → Bool

/-- The filter that keeps every document. -/
def Filter.all : Filter := ⟨fun _ _ => true, fun _ _ => false⟩

/-- The condition applied to an expression. -/
def Condition.filter (c : Condition) (expression : String) : Filter :=
  ⟨fun k d => c.holds k d expression, fun k d => c.crashes k d expression⟩

/-! ## The registry -/

/-- The operators that have names. -/
structure Operators where
  conditions : SortedMap String Condition
  comparators : SortedMap String Comparator
  functions : SortedMap String UpdateFunction

namespace Operators

def empty : Operators := ⟨∅, ∅, ∅⟩

def withCondition (ops : Operators) (name : String) (c : Condition) : Operators :=
  { ops with conditions := ops.conditions.insert name c }

def withComparator (ops : Operators) (name : String) (c : Comparator) : Operators :=
  { ops with comparators := ops.comparators.insert name c }

def withFunction (ops : Operators) (name : String) (f : UpdateFunction) : Operators :=
  { ops with functions := ops.functions.insert name f }

def condition (ops : Operators) (name : String) : Except StoreError Condition :=
  match ops.conditions.get? name with
  | some c => .ok c
  | none => .error (.unsatisfiableCondition name)

def comparator (ops : Operators) (name : String) : Except StoreError Comparator :=
  match ops.comparators.get? name with
  | some c => .ok c
  | none => .error (.unknownComparator name)

def function (ops : Operators) (name : String) : Except StoreError UpdateFunction :=
  match ops.functions.get? name with
  | some f => .ok f
  | none => .error (.unknownFunction name)

/-- The filter that an optional predicate stands for. -/
def filter (ops : Operators) : Option Predicate → Except StoreError Filter
  | none => .ok .all
  | some p => (ops.condition p.condition).map (·.filter p.expression)

end Operators

end BucketCluster
