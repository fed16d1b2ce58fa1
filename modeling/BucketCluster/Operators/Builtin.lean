import BucketCluster.Number.Literal
import BucketCluster.Operators

/-!
# Built-in operators

The operators that every node knows: the condition `json` looks at one field of
a JSON object, the comparators `lexical` and `numeric` order keys as bytes and
as numbers, and the functions `replace` and `merge` build a JSON object from the
parameters, from nothing or on top of the stored one.
-/

namespace BucketCluster.Operators

/-! ## Conditions -/

/-- Does the field with the name before the first `=` have the value after it?
Blanks around both do not count; a string field is compared as it is, any other
one by its JSON text. -/
def jsonField (d : Document) (expression : String) : Bool :=
  match Text.cut '=' expression, d.toJson with
  | some (field, expected), .ok (.object ms) =>
    match Json.member? (Text.trim field) ms with
    | some (.string s) => s == Text.trim expected
    | some j => j.write == Utf8.encode (Text.trim expected)
    | none => false
  | _, _ => false

/-! ## Comparators -/

/-- Byte order. -/
def lexicalOrder : Comparator := compare

/-- Keys that spell numbers come first, in numeric order; two of which one is no
number at all in that order are not told apart.  All others follow in byte
order. -/
def numericOrder : Comparator := fun a b =>
  match Number.read? a.bytes, Number.read? b.bytes with
  | some (.number x), some (.number y) => x.order y
  | some _, some _ => .eq
  | some _, none => .lt
  | none, some _ => .gt
  | none, none => compare a b

/-! ## Update functions -/

/-- The parameters as the members of an object. -/
def replaceDocument (parameters : Parameters) (deadline : Deadline) :
    Except StoreError Document := do
  deadline.check "replace"
  .ok (.ofJson (.object (parameters.entries.map fun (name, text) => (name, .string text))))

/-- Sets the parameters as members of an object, looking at the deadline before
each. -/
def mergeMembers (deadline : Deadline) :
    List (String × String) → List (String × Json) → Except StoreError (List (String × Json))
  | [], ms => .ok ms
  | (name, text) :: rest, ms => do
    deadline.check "merge"
    mergeMembers deadline.next rest (Entries.insert name (.string text) ms)

/-- The stored object with the parameters set in it. -/
def mergeDocument (d : Document) (parameters : Parameters) (deadline : Deadline) :
    Except StoreError Document :=
  match d.toJson with
  | .error fault => .error (.malformed fault.message)
  | .ok (.object ms) =>
    (mergeMembers deadline parameters.entries ms).map fun ms => .ofJson (.object ms)
  | .ok _ => .error (.malformed "merge requires a JSON object")

/-! ## The registry -/

/-- The registry of the built-in operators. -/
def builtin : Operators :=
  empty
    |>.withCondition "json" { holds := fun _ d expression => jsonField d expression }
    |>.withComparator "lexical" lexicalOrder
    |>.withComparator "numeric" numericOrder
    |>.withFunction "replace" {
      run := fun _ _ parameters deadline => replaceDocument parameters deadline }
    |>.withFunction "merge" {
      run := fun _ d parameters deadline => mergeDocument d parameters deadline }

end BucketCluster.Operators
