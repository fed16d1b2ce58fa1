import BucketCluster.Text.Blank

/-!
# Predicates

A predicate names a condition and hands it an expression.  Its text is the two
with a colon between them: everything after the first colon is the expression,
untouched, and what stands before it is the name, which must not be blank and
loses the blanks around it.
-/

namespace BucketCluster

/-- A filter on documents: the named condition, applied to the expression. -/
structure Predicate where
  condition : String
  expression : String
deriving DecidableEq, Repr, Inhabited

namespace Predicate

/-- The predicate that a text spells. -/
def parse? (s : String) : Option Predicate :=
  match Text.cut ':' s with
  | some (name, expression) =>
    let name := Text.trim name
    if name.isEmpty then none else some ⟨name, expression⟩
  | none => none

/-- The text of a predicate. -/
def shown (p : Predicate) : String := p.condition ++ ":" ++ p.expression

end Predicate

end BucketCluster
