import BucketCluster.Answer
import BucketCluster.Command
import BucketCluster.Schema.Json
import BucketCluster.Schema.Text
import BucketCluster.Schema.Wire

/-!
# Messages

The schemas of what clients and nodes send each other: commands, answers,
processing errors, and the replies that hold one of the two.
-/

namespace BucketCluster

/-! ## Parts of commands -/

def Document.schema : Schema Document := .refine .octets (some ∘ Document.mk) Document.bytes

def Predicate.schema : Schema Predicate :=
  .record
    (.field "condition" .text .none <|
     .field "expression" .text .none .nil)
    (fun (c, e, _) => ⟨c, e⟩) (fun p => (p.condition, p.expression, ()))

def KeyRange.schema : Schema KeyRange :=
  .record
    (.field "start_key" .key .none <|
     .field "end_key" (.option .key) (.inObject none) <|
     .field "limit" .word64 .none <|
     .field "comparator" (.option .text) (.inObject none) .nil)
    (fun (s, e, l, c, _) => ⟨s, e, l, c⟩) (fun r => (r.start, r.stop, r.limit, r.comparator, ()))

def Update.schema : Schema Update :=
  .record
    (.field "function" .text .none <|
     .field "timeout_ms" .word64 .none <|
     .field "parameters" (.textMap .text) .none .nil)
    (fun (f, t, ps, _) => ⟨f, t, ps⟩) (fun u => (u.function, u.milliseconds, u.parameters, ()))

/-! ## Commands -/

namespace Operation

/-- The field with the bucket's name, in front of the others. -/
def bucketField {β σ : Type} (rest : Fields β σ) : Fields (String × β) (Option String × σ) :=
  .field "bucket" .text .none rest

/-- The field with a key, in front of the others. -/
def keyField {β σ : Type} (rest : Fields β σ) : Fields (Key × β) (Option Key × σ) :=
  .field "key" .key .none rest

/-- The field with a predicate that may be missing, as the last one. -/
def predicateField : Fields (Option Predicate × Unit) (Option (Option Predicate) × Unit) :=
  .field "predicate" (.option Predicate.schema) (.inObject none) .nil

/-- A record that is carried as it is. -/
def plain {α σ : Type} (fields : Fields α σ) : Schema α := .record fields id id

def schema : Schema Operation := .choice <|
  .unit "GetBuckets" .getBuckets (· matches .getBuckets) <|
  .case "GetValue" (plain <| bucketField <| keyField predicateField)
    (fun (b, k, p, _) => .getValue b k p)
    (fun | .getValue b k p => some (b, k, p, ()) | _ => none) <|
  .case "GetValues" (plain <| bucketField <| .field "keys" (.set .key) .none predicateField)
    (fun (b, ks, p, _) => .getValues b ks p)
    (fun | .getValues b ks p => some (b, ks, p, ()) | _ => none) <|
  .case "GetKeys" (plain <| bucketField .nil)
    (fun (b, _) => .getKeys b)
    (fun | .getKeys b => some (b, ()) | _ => none) <|
  .case "PutValue"
    (plain <| bucketField <| keyField <| .field "value" Document.schema .none predicateField)
    (fun (b, k, v, p, _) => .putValue b k v p)
    (fun | .putValue b k v p => some (b, k, v, p, ()) | _ => none) <|
  .case "RemoveValue" (plain <| bucketField <| keyField .nil)
    (fun (b, k, _) => .removeValue b k)
    (fun | .removeValue b k => some (b, k, ()) | _ => none) <|
  .case "UpdateValue" (plain <| bucketField <| keyField <| .field "update" Update.schema .none .nil)
    (fun (b, k, u, _) => .updateValue b k u)
    (fun | .updateValue b k u => some (b, k, u, ()) | _ => none) <|
  .case "RangeQuery" (plain <| bucketField <| .field "range" KeyRange.schema .none predicateField)
    (fun (b, r, p, _) => .rangeQuery b r p)
    (fun | .rangeQuery b r p => some (b, r, p, ()) | _ => none) <|
  .case "PredicateQuery"
    (plain <| bucketField <| .field "predicate" Predicate.schema .none .nil)
    (fun (b, p, _) => .predicateQuery b p)
    (fun | .predicateQuery b p => some (b, p, ()) | _ => none) <|
  .case "RemoveBucket" (plain <| bucketField .nil)
    (fun (b, _) => .removeBucket b)
    (fun | .removeBucket b => some (b, ()) | _ => none) <|
  .case "ImportBackup" (plain <| bucketField <| .field "source" .text .none .nil)
    (fun (b, s, _) => .importBackup b s)
    (fun | .importBackup b s => some (b, s, ()) | _ => none) <|
  .case "ExportBackup" (plain <| bucketField <| .field "destination" .text .none .nil)
    (fun (b, d, _) => .exportBackup b d)
    (fun | .exportBackup b d => some (b, d, ()) | _ => none) .nil

end Operation

def Command.schema : Schema Command :=
  .record
    (.field "id" .text .none <|
     .field "kind" Operation.schema .none .nil)
    (fun (i, o, _) => ⟨i, o⟩) (fun c => (c.id, c.operation, ()))

/-! ## Answers -/

def Answer.schema : Schema Answer := .choice <|
  .unit "Done" .done (· matches .done) <|
  .case "Value" (.option Document.schema) .value (fun | .value v => some v | _ => none) <|
  .case "Values" (.keyMap Document.schema) .values (fun | .values vs => some vs | _ => none) <|
  .case "Entries" (.list (.pair .key Document.schema)) .entries
    (fun | .entries es => some es | _ => none) <|
  .case "Keys" (.set .key) .keys (fun | .keys ks => some ks | _ => none) <|
  .case "Buckets" (.set .text) .buckets (fun | .buckets bs => some bs | _ => none) <|
  .case "Count" .word64 .count (fun | .count n => some n | _ => none) .nil

/-! ## Errors -/

namespace StoreError

/-- A record of one text. -/
def one (name : String) : Schema (String × Unit) :=
  .record (.field name .text .none .nil) id id

/-- A record of a bucket and a key. -/
def bucketAndKey : Schema (String × String × Unit) :=
  .record (.field "bucket" .text .none <| .field "key" .text .none .nil) id id

def schema : Schema StoreError := .choice <|
  .case "UnsatisfiableCondition" (one "condition") (fun (c, _) => .unsatisfiableCondition c)
    (fun | .unsatisfiableCondition c => some (c, ()) | _ => none) <|
  .case "UnknownComparator" (one "comparator") (fun (c, _) => .unknownComparator c)
    (fun | .unknownComparator c => some (c, ()) | _ => none) <|
  .case "UnknownFunction" (one "function") (fun (f, _) => .unknownFunction f)
    (fun | .unknownFunction f => some (f, ()) | _ => none) <|
  .case "InvalidPredicate" (one "expression") (fun (e, _) => .invalidPredicate e)
    (fun | .invalidPredicate e => some (e, ()) | _ => none) <|
  .case "ConditionFailed" bucketAndKey (fun (b, k, _) => .conditionFailed b k)
    (fun | .conditionFailed b k => some (b, k, ()) | _ => none) <|
  .case "KeyNotFound" bucketAndKey (fun (b, k, _) => .keyNotFound b k)
    (fun | .keyNotFound b k => some (b, k, ()) | _ => none) <|
  .case "Timeout" (one "function") (fun (f, _) => .timeout f)
    (fun | .timeout f => some (f, ()) | _ => none) <|
  .case "Backup" (one "reason") (fun (r, _) => .backup r)
    (fun | .backup r => some (r, ()) | _ => none) <|
  .case "Malformed" (one "reason") (fun (r, _) => .malformed r)
    (fun | .malformed r => some (r, ()) | _ => none) .nil

end StoreError

def ProcessingError.schema : Schema ProcessingError := .choice <|
  .case "Store" StoreError.schema .store (fun | .store e => some e | _ => none) <|
  .unit "Shutdown" .shutdown (· matches .shutdown) <|
  .case "Panicked" .text .panicked (fun | .panicked r => some r | _ => none) <|
  .case "UnexpectedResult" (StoreError.one "expected") (fun (e, _) => .unexpectedResult e)
    (fun | .unexpectedResult e => some (e, ()) | _ => none) .nil

/-- A reply is an answer or an error. -/
def Reply.schema : Schema Reply := .choice <|
  .case "Ok" Answer.schema .ok (fun | .ok a => some a | _ => none) <|
  .case "Err" ProcessingError.schema .error (fun | .error e => some e | _ => none) .nil

end BucketCluster
