import BucketCluster.Bytes

/-!
# UTF-8

Text is stored and sent as UTF-8.  Reading splits a byte string into pieces: a
piece is a character, or a run of bytes that begins a character and breaks off.
A broken run ends before the first byte that cannot continue it, so each broken
run is as long as possible and no byte of a good character is swallowed.

`decode?` accepts exactly the byte strings whose pieces are all characters;
`lossy` puts U+FFFD for every broken run.
-/

namespace BucketCluster.Utf8

/-! ## Writing -/

/-- The bytes of a text. -/
def encodeChars (cs : List Char) : Bytes := cs.flatMap String.utf8EncodeChar

/-- The bytes of a text. -/
def encode (s : String) : Bytes := encodeChars s.toList

/-! ## Reading -/

/-- Between two bytes: at the start of a character, or inside one that has the
payload bits `bits` so far, needs `need` further bytes, and takes only
`low … high` for the next of them. -/
inductive State where
  | start
  | inside (bits need : Nat) (low high : UInt8)

/-- What a first byte leads to; `none` if no character starts with it.  The second byte
is restricted where a longer form than needed, a surrogate or a number above U+10FFFF
would follow. -/
def lead (b : UInt8) : Option (Char ⊕ State) :=
  if b < 0x80 then some (.inl (Char.ofNat b.toNat))
  else if b < 0xC2 then none
  else if b < 0xE0 then some (.inr (.inside (b.toNat - 0xC0) 1 0x80 0xBF))
  else if b = 0xE0 then some (.inr (.inside 0 2 0xA0 0xBF))
  else if b = 0xED then some (.inr (.inside 13 2 0x80 0x9F))
  else if b < 0xF0 then some (.inr (.inside (b.toNat - 0xE0) 2 0x80 0xBF))
  else if b = 0xF0 then some (.inr (.inside 0 3 0x90 0xBF))
  else if b < 0xF4 then some (.inr (.inside (b.toNat - 0xF0) 3 0x80 0xBF))
  else if b = 0xF4 then some (.inr (.inside 4 3 0x80 0x8F))
  else none

/-- The pieces of a byte string: characters, and `none` for each broken run. -/
def pieces : State → Bytes → List (Option Char)
  | .start, [] => []
  | .inside .., [] => [none]
  | .start, b :: bs =>
    match lead b with
    | none => none :: pieces .start bs
    | some (.inl c) => some c :: pieces .start bs
    | some (.inr st) => pieces st bs
  | .inside bits need low high, b :: bs =>
    if low ≤ b && b ≤ high then
      let bits := 64 * bits + b.toNat % 64
      if need ≤ 1 then some (Char.ofNat bits) :: pieces .start bs
      else pieces (.inside bits (need - 1) 0x80 0xBF) bs
    else
      none :: match lead b with
        | none => none :: pieces .start bs
        | some (.inl c) => some c :: pieces .start bs
        | some (.inr st) => pieces st bs

/-- The text, if every piece is a character. -/
def decode? (bs : Bytes) : Option String :=
  ((pieces .start bs).mapM id).map String.ofList

/-- The text with U+FFFD for every broken run. -/
def lossy (bs : Bytes) : String :=
  String.ofList ((pieces .start bs).map (·.getD '\uFFFD'))

end BucketCluster.Utf8
