import BucketCluster.Text.Utf8

/-!
# JSON: blanks, words and strings

JSON text is read from left to right and reading stops at the first problem.  A
problem is one of three: the text broke off (`truncated`), what stands there is
no JSON (`malformed`), or it is JSON of another shape than the one wanted
(`mismatched`).

A string is read as bytes, escapes resolved, and has to be UTF-8 as a whole.  It
is written with escapes for the quote, the backslash and the control characters
alone.
-/

namespace BucketCluster.Json

/-- Why JSON text was refused. -/
inductive Fault where
  | truncated
  | malformed
  | mismatched
deriving DecidableEq, Repr

/-- The wording of a refusal. -/
def Fault.message : Fault → String
  | .truncated => "JSON text ends too early"
  | .malformed => "text is not JSON"
  | .mismatched => "JSON has another shape than expected"

/-- Reads a value off the front of a text and gives what follows it. -/
abbrev Reader (α : Type) := Bytes → Except Fault (α × Bytes)

/-! ## Blanks and words -/

def isBlank (b : UInt8) : Bool := b = 32 || b = 10 || b = 9 || b = 13

def skipBlanks (bs : Bytes) : Bytes := bs.dropWhile isBlank

/-- Reads exactly the bytes of `word`. -/
def expectWord : Bytes → Bytes → Except Fault Bytes
  | [], bs => .ok bs
  | _ :: _, [] => .error .truncated
  | w :: word, b :: bs => if b = w then expectWord word bs else .error .malformed

/-- What follows the `n` of `null`. -/
def nullTail : Bytes := [117, 108, 108]

/-- What follows the `t` of `true`. -/
def trueTail : Bytes := [114, 117, 101]

/-- What follows the `f` of `false`. -/
def falseTail : Bytes := [97, 108, 115, 101]

/-! ## Strings, read -/

/-- Four hexadecimal digits. -/
def hexQuad : Reader Nat
  | a :: b :: c :: d :: rest =>
    match Bytes.hexValue? a, Bytes.hexValue? b, Bytes.hexValue? c, Bytes.hexValue? d with
    | some a, some b, some c, some d => .ok (((a * 16 + b) * 16 + c) * 16 + d, rest)
    | _, _, _, _ => .error .malformed
  | _ => .error .truncated

def isLeadSurrogate (n : Nat) : Bool := 0xD800 ≤ n && n ≤ 0xDBFF

def isTrailSurrogate (n : Nat) : Bool := 0xDC00 ≤ n && n ≤ 0xDFFF

/-- The character that `\u` and four digits stand for; a leading surrogate needs
its trailing one in a second escape. -/
def unicodeEscape : Reader Bytes := fun bs => do
  let (n, rest) ← hexQuad bs
  if isTrailSurrogate n then .error .malformed
  else if isLeadSurrogate n then
    match rest with
    | [] => .error .truncated
    | [92] => .error .truncated
    | 92 :: 117 :: rest => do
      let (m, rest) ← hexQuad rest
      if isTrailSurrogate m then
        .ok (String.utf8EncodeChar (Char.ofNat (0x10000 + (n - 0xD800) * 1024 + (m - 0xDC00))),
          rest)
      else .error .malformed
    | _ => .error .malformed
  else .ok (String.utf8EncodeChar (Char.ofNat n), rest)

/-- The byte that a one-letter escape stands for. -/
def escapedByte? (b : UInt8) : Option UInt8 :=
  if b = 34 || b = 92 || b = 47 then some b
  else if b = 98 then some 8
  else if b = 102 then some 12
  else if b = 110 then some 10
  else if b = 114 then some 13
  else if b = 116 then some 9
  else none

/-- What follows a backslash. -/
def escape : Reader Bytes
  | [] => .error .truncated
  | b :: bs =>
    if b = 117 then unicodeEscape bs
    else match escapedByte? b with
      | some c => .ok ([c], bs)
      | none => .error .malformed

/-- The bytes up to the closing quote, escapes resolved by `esc`.  The first
argument bounds the steps; the text itself will do. -/
def stringBytesAux (esc : Reader Bytes) : Bytes → Reader Bytes
  | [], _ => .error .truncated
  | _ :: _, [] => .error .truncated
  | _ :: fuel, b :: bs =>
    if b = 34 then .ok ([], bs)
    else if b = 92 then do
      let (c, bs) ← esc bs
      let (cs, bs) ← stringBytesAux esc fuel bs
      .ok (c ++ cs, bs)
    else if b < 32 then .error .malformed
    else do
      let (cs, bs) ← stringBytesAux esc fuel bs
      .ok (b :: cs, bs)

/-- The text of a string whose opening quote has been read. -/
def stringTail : Reader String := fun bs => do
  let (raw, rest) ← stringBytesAux escape bs bs
  match Utf8.decode? raw with
  | some s => .ok (s, rest)
  | none => .error .malformed

/-- An escape in a string that nobody looks at: surrogates need no partner. -/
def uncheckedEscape : Reader Bytes
  | [] => .error .truncated
  | b :: bs =>
    if b = 117 then (hexQuad bs).map fun (_, rest) => ([], rest)
    else if (escapedByte? b).isSome then .ok ([], bs) else .error .malformed

/-- Passes over a string whose opening quote has been read. -/
def skipString : Bytes → Except Fault Bytes := fun bs =>
  (stringBytesAux uncheckedEscape bs bs).map (·.2)

/-! ## Strings, written -/

/-- A byte of a string as it stands between the quotes. -/
def escapeByte (b : UInt8) : Bytes :=
  if b = 34 then [92, 34]
  else if b = 92 then [92, 92]
  else if b = 8 then [92, 98]
  else if b = 12 then [92, 102]
  else if b = 10 then [92, 110]
  else if b = 13 then [92, 114]
  else if b = 9 then [92, 116]
  else if b < 32 then
    [92, 117, 48, 48, Bytes.hexDigit (b.toNat / 16), Bytes.hexDigit (b.toNat % 16)]
  else [b]

/-- A text in quotes. -/
def quote (s : String) : Bytes := 34 :: ((Utf8.encode s).flatMap escapeByte ++ [34])

end BucketCluster.Json
