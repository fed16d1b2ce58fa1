import BucketCluster.Json.Number

/-!
# JSON: lists and objects

The brackets, commas and colons that hold values together.  `elements` and
`members` read what stands between the brackets with a reader for one element or
one member, and stop in front of the closing bracket; they serve documents and
messages alike.  `skipValue` passes over a value of any depth that nobody looks
at, and `mismatch` says what is wrong with a value of another kind than the one
wanted.
-/

namespace BucketCluster.Json

/-! ## Lists -/

/-- Where the next element of a list begins; `none` in front of the bracket. -/
def nextElement (first : Bool) (bs : Bytes) : Except Fault (Option Bytes) :=
  match skipBlanks bs with
  | [] => .error .truncated
  | b :: rest =>
    if b = 93 then .ok none
    else if first then .ok (some (b :: rest))
    else if b = 44 then
      match skipBlanks rest with
      | [] => .error .truncated
      | c :: rest => if c = 93 then .error .malformed else .ok (some (c :: rest))
    else .error .malformed

/-- The closing bracket of a list. -/
def closeList (bs : Bytes) : Except Fault Bytes :=
  match skipBlanks bs with
  | [] => .error .truncated
  | b :: rest => if b = 93 then .ok rest else .error .malformed

/-- The elements up to the closing bracket.  The first argument bounds their
number; the text itself will do, since every element takes up some of it. -/
def elementsAux {α : Type} (element : Reader α) : Bytes → Bool → Reader (List α)
  | [], _, _ => .error .truncated
  | _ :: fuel, first, bs => do
    match ← nextElement first bs with
    | none => .ok ([], bs)
    | some bs => do
      let (x, bs) ← element bs
      let (xs, bs) ← elementsAux element fuel false bs
      .ok (x :: xs, bs)

/-- A list whose opening bracket has been read. -/
def listTail {α : Type} (element : Reader α) : Reader (List α) := fun bs => do
  let (xs, rest) ← elementsAux element bs true bs
  let rest ← closeList rest
  .ok (xs, rest)

/-! ## Objects -/

/-- What follows the opening quote of a name that has to come next.  Nothing else
that stands there is looked into. -/
def nameStart (bs : Bytes) : Except Fault Bytes :=
  match skipBlanks bs with
  | [] => .error .truncated
  | b :: rest => if b = 34 then .ok rest else .error .malformed

/-- What follows the opening quote of the next member's name; `none` in front of
the brace. -/
def nextMember (first : Bool) (bs : Bytes) : Except Fault (Option Bytes) :=
  match skipBlanks bs with
  | [] => .error .truncated
  | b :: rest =>
    if b = 125 then .ok none
    else if first then
      if b = 34 then .ok (some rest) else .error .malformed
    else if b = 44 then (nameStart rest).map some
    else .error .malformed

/-- The colon between a name and its value. -/
def colon (bs : Bytes) : Except Fault Bytes :=
  match skipBlanks bs with
  | [] => .error .truncated
  | b :: rest => if b = 58 then .ok rest else .error .malformed

/-- The closing brace of an object. -/
def closeObject (bs : Bytes) : Except Fault Bytes :=
  match skipBlanks bs with
  | [] => .error .truncated
  | b :: rest => if b = 125 then .ok rest else .error .malformed

/-- The members up to the closing brace, each added to what the ones before it
amount to.  The first argument bounds their number as for lists. -/
def membersAux {σ : Type} (member : σ → Reader σ) : Bytes → Bool → σ → Reader σ
  | [], _, _, _ => .error .truncated
  | _ :: fuel, first, acc, bs => do
    match ← nextMember first bs with
    | none => .ok (acc, bs)
    | some bs => do
      let (acc, bs) ← member acc bs
      membersAux member fuel false acc bs

/-- The members of an object whose opening brace has been read, up to the closing one. -/
def members {σ : Type} (member : σ → Reader σ) (start : σ) : Reader σ := fun bs =>
  membersAux member bs true start bs

/-! ## Passing over -/

/-- Passes over a value nested at most `depth` deep. -/
def skipValueAux (depth : Nat) (bs : Bytes) : Except Fault Bytes :=
  match skipBlanks bs with
  | [] => .error .truncated
  | b :: rest =>
    if b = 110 then expectWord nullTail rest
    else if b = 116 then expectWord trueTail rest
    else if b = 102 then expectWord falseTail rest
    else if b = 45 then skipNumberTail rest
    else if Bytes.isDigit b then skipNumberTail (b :: rest)
    else if b = 34 then skipString rest
    else if b = 91 then
      match depth with
      | 0 => .error .malformed
      | depth + 1 => (listTail (fun bs => (skipValueAux depth bs).map ((), ·)) rest).map (·.2)
    else if b = 123 then
      match depth with
      | 0 => .error .malformed
      | depth + 1 => do
        let (_, rest) ← members (fun _ bs => do
          let bs ← skipString bs
          let bs ← colon bs
          (skipValueAux depth bs).map ((), ·)) () rest
        closeObject rest
    else .error .malformed

/-- Passes over a value.  No value is nested deeper than its text is long. -/
def skipValue (bs : Bytes) : Except Fault Bytes := skipValueAux bs.length bs

/-! ## Values of another kind -/

/-- What is wrong with a text that does not begin with the kind of value wanted.
A word, number or string that stands there is read first, so that a broken one
is reported as broken. -/
def mismatch (bs : Bytes) : Fault :=
  let after {α : Type} : Except Fault α → Fault
    | .error fault => fault
    | .ok _ => .mismatched
  match bs with
  | [] => .truncated
  | b :: rest =>
    if b = 110 then after (expectWord nullTail rest)
    else if b = 116 then after (expectWord trueTail rest)
    else if b = 102 then after (expectWord falseTail rest)
    else if b = 45 || Bytes.isDigit b then after (readNumber (b :: rest))
    else if b = 34 then after (stringTail rest)
    else if b = 91 || b = 123 then .mismatched
    else .malformed

/-- Reads a value and requires that nothing but blanks follows it. -/
def Reader.whole {α : Type} (reader : Reader α) (bs : Bytes) : Except Fault α := do
  let (x, rest) ← reader bs
  if (skipBlanks rest).isEmpty then .ok x else .error .malformed

/-! ## Writing -/

/-- The texts with commas between them. -/
def commaSeparated : List Bytes → Bytes
  | [] => []
  | [bs] => bs
  | bs :: more => bs ++ 44 :: commaSeparated more

def writeList (items : List Bytes) : Bytes := 91 :: (commaSeparated items ++ [93])

def writeObject (fields : List (String × Bytes)) : Bytes :=
  123 :: (commaSeparated (fields.map fun (name, bs) => quote name ++ 58 :: bs) ++ [125])

/-- The text of `null`. -/
def nullText : Bytes := 110 :: nullTail

end BucketCluster.Json
