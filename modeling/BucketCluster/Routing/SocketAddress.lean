import BucketCluster.Bytes

/-!
# Socket addresses

Where a node listens: `1.2.3.4:80` or `[2001:db8::1%scope]:80`.

Version 4 addresses are four decimal numbers below 256 without leading zeros.
Version 6 addresses are eight groups of up to four hexadecimal digits, of which a
run of zero groups may be left out once as `::`, and of which the last two may be
written as a version 4 address.  They are written in lower case with the longest
run of at least two zero groups left out, the first of several.
-/

namespace BucketCluster

/-- An address and a port. -/
inductive SocketAddress where
  | v4 (octets : List Nat) (port : Nat)
  | v6 (groups : List Nat) (scope : Nat) (port : Nat)
deriving DecidableEq, Repr

namespace SocketAddress

/-! ## Reading -/

def isDigit (c : Char) : Bool := '0' ≤ c && c ≤ '9'

/-- The number that decimal digits spell. -/
def decimalValue (ds : List Char) : Nat := ds.foldl (fun n d => 10 * n + (d.toNat - 48)) 0

/-- What a hexadecimal digit counts. -/
def hexValue (c : Char) : Option Nat := Bytes.hexValue? (UInt8.ofNat c.toNat) |>.filter fun _ =>
      c.toNat < 128

/-- Decimal digits below `bound`; leading zeros are allowed. -/
def number? (bound : Nat) (cs : List Char) : Option (Nat × List Char) :=
  let ds := cs.takeWhile isDigit
  let n := decimalValue ds
  if ds.isEmpty || bound ≤ n then none else some (n, cs.dropWhile isDigit)

/-- A number below 256 in at most three digits, without a leading zero. -/
def octet? (cs : List Char) : Option (Nat × List Char) :=
  let ds := cs.takeWhile isDigit
  if 3 < ds.length || (1 < ds.length && ds.head? = some '0') then none else number? 256 cs

/-- The given character. -/
def expect (c : Char) : List Char → Option (List Char)
  | [] => none
  | d :: cs => if d = c then some cs else none

/-- Four octets with points between them. -/
def octets? (cs : List Char) : Option (List Nat × List Char) := do
  let (a, cs) ← octet? cs
  let cs ← expect '.' cs
  let (b, cs) ← octet? cs
  let cs ← expect '.' cs
  let (c, cs) ← octet? cs
  let cs ← expect '.' cs
  let (d, cs) ← octet? cs
  some ([a, b, c, d], cs)

/-- A port number that ends the text. -/
def port? (cs : List Char) : Option Nat := do
  let cs ← expect ':' cs
  let (n, cs) ← number? 65536 cs
  if cs.isEmpty then some n else none

/-- Up to four hexadecimal digits, at least one. -/
def group? (cs : List Char) : Option (Nat × List Char) :=
  let ds := cs.takeWhile fun c => (hexValue c).isSome
  if ds.isEmpty || 4 < ds.length then none
  else some (ds.foldl (fun n d => 16 * n + (hexValue d).getD 0) 0, cs.drop ds.length)

/-- The two groups that a version 4 address fills. -/
def embedded : List Nat → List Nat
  | [a, b, c, d] => [a * 256 + b, c * 256 + d]
  | _ => []

/-- At most `limit` groups with colons between them, as many as there are; a
version 4 address may take the place of the last two.  The first of them follows
a colon unless `first`.  The flag tells whether such an address ended them. -/
def groups : Nat → Bool → List Char → List Nat × Bool × List Char
  | 0, _, cs => ([], false, cs)
  | limit + 1, first, cs =>
    let start := if first then some cs else expect ':' cs
    match start with
    | none => ([], false, cs)
    | some rest =>
      let tail := if 1 ≤ limit then octets? rest else none
      match tail with
      | some (os, rest) => (embedded os, true, rest)
      | none =>
        match group? rest with
        | none => ([], false, cs)
        | some (g, rest) =>
          let (gs, closed, rest) := groups limit false rest
          (g :: gs, closed, rest)

/-- The eight groups of a version 6 address. -/
def v6Groups? (cs : List Char) : Option (List Nat × List Char) :=
  let (front, closed, rest) := groups 8 true cs
  if front.length = 8 then some (front, rest)
  else if closed then none
  else do
    let rest ← expect ':' rest
    let rest ← expect ':' rest
    let (back, _, rest) := groups (7 - front.length) true rest
    some (front ++ List.replicate (8 - front.length - back.length) 0 ++ back, rest)

/-- The scope after a per cent sign; 0 without one. -/
def scope? : List Char → Option (Nat × List Char)
  | '%' :: cs => number? UInt32.size cs
  | cs => some (0, cs)

/-- The address that a text spells. -/
def parse? (s : String) : Option SocketAddress :=
  match s.toList with
  | '[' :: cs => do
    let (gs, cs) ← v6Groups? cs
    let (scope, cs) ← scope? cs
    let cs ← expect ']' cs
    let port ← port? cs
    some (.v6 gs scope port)
  | cs => do
    let (os, cs) ← octets? cs
    let port ← port? cs
    some (.v4 os port)

/-! ## Writing -/

/-- The digits of a number in base 16. -/
def hexText (n : Nat) : List Char := Nat.toDigits 16 n

/-- The texts with a separator between them. -/
def joined (sep : Char) : List (List Char) → List Char
  | [] => []
  | [t] => t
  | t :: ts => t ++ sep :: joined sep ts

def octetText (os : List Nat) : List Char := joined '.' (os.map fun o => Nat.toDigits 10 o)

/-- Where the longest run of zero groups begins and how long it is, the first of
several; `here` is the place of the first group given. -/
def zeroRun (here : Nat) (best : Nat × Nat) : List Nat → Nat → Nat × Nat
  | [], run => if best.2 < run then (here - run, run) else best
  | g :: gs, run =>
    if g = 0 then zeroRun (here + 1) best gs (run + 1)
    else zeroRun (here + 1) (if best.2 < run then (here - run, run) else best) gs 0

/-- The text of eight groups. -/
def groupText (gs : List Nat) : List Char :=
  match gs with
  | [0, 0, 0, 0, 0, 0xffff, a, b] =>
    "::ffff:".toList ++ octetText [a / 256, a % 256, b / 256, b % 256]
  | _ =>
    let (place, length) := zeroRun 0 (0, 0) gs 0
    if 1 < length then
      joined ':' ((gs.take place).map hexText) ++ "::".toList ++
        joined ':' ((gs.drop (place + length)).map hexText)
    else joined ':' (gs.map hexText)

/-- The text of an address. -/
def text : SocketAddress → String
  | v4 os port => String.ofList (octetText os ++ ':' :: Nat.toDigits 10 port)
  | v6 gs scope port =>
    let zone := if scope = 0 then [] else '%' :: Nat.toDigits 10 scope
    String.ofList ('[' :: (groupText gs ++ zone ++ "]:".toList ++ Nat.toDigits 10 port))

end SocketAddress

end BucketCluster
