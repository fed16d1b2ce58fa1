import BucketCluster.Json.Token
import BucketCluster.Proofs.Text.Utf8

/-!
# Strings are read back

`stringTail_quoted` says that a text in quotes is read back, whatever follows the
closing quote.  Every byte is written as it is or as an escape that stands for it
alone (`escapeByte_spec`), so the reader gets the bytes of the text one by one.
What is written is text again, and printable: it has no byte below 32.
-/

namespace BucketCluster.Json

/-! ## Blanks -/

theorem skipBlanks_cons {b : UInt8} (h : isBlank b = false) (bs : Bytes) :
    skipBlanks (b :: bs) = b :: bs := by
  rw [skipBlanks, List.dropWhile_cons_of_neg (by rw [h]; decide)]

theorem expectWord_append (word rest : Bytes) : expectWord word (word ++ rest) = .ok rest := by
  induction word with
  | nil => rfl
  | cons w word ih => rw [List.cons_append, expectWord, if_pos rfl, ih]

/-! ## Escapes -/

theorem hexValue?_hexDigit : ∀ n < 16, Bytes.hexValue? (Bytes.hexDigit n) = some n := by decide

/-- The long form of a control character. -/
theorem unicodeEscape_hex {b : UInt8} (h : b < 32) (rest : Bytes) :
    unicodeEscape
      (48 :: 48 :: Bytes.hexDigit (b.toNat / 16) :: Bytes.hexDigit (b.toNat % 16) :: rest) =
      .ok ([b], rest) := by
  have hb : b.toNat < 32 := UInt8.lt_iff_toNat_lt.1 h
  have hquad :
    hexQuad (48 :: 48 :: Bytes.hexDigit (b.toNat / 16) :: Bytes.hexDigit (b.toNat % 16) :: rest) =
      .ok (b.toNat, rest) := by
    have hzero : Bytes.hexValue? 48 = some 0 := by decide
    have hvalue : ((0 * 16 + 0) * 16 + b.toNat / 16) * 16 + b.toNat % 16 = b.toNat := by omega
    unfold hexQuad
    simp only [hzero, hexValue?_hexDigit _ (by omega : b.toNat / 16 < 16),
      hexValue?_hexDigit _ (by omega : b.toNat % 16 < 16), hvalue]
  have hchar : String.utf8EncodeChar (Char.ofNat b.toNat) = [b] := by
    unfold String.utf8EncodeChar
    rw [Utf8.val_ofNat (by omega)]
    simp only
    rw [if_pos (by omega), UInt8.ofNat_toNat]
  have htrail : isTrailSurrogate b.toNat = false := by
    unfold isTrailSurrogate
    simp only [Bool.and_eq_false_iff, decide_eq_false_iff_not]
    omega
  have hlead : isLeadSurrogate b.toNat = false := by
    unfold isLeadSurrogate
    simp only [Bool.and_eq_false_iff, decide_eq_false_iff_not]
    omega
  rw [unicodeEscape, hquad]
  show (if isTrailSurrogate b.toNat then _ else if isLeadSurrogate b.toNat then _ else _) = _
  rw [htrail, hlead, if_neg Bool.false_ne_true, if_neg Bool.false_ne_true, hchar]

/-- A byte stands for itself, or an escape stands for it. -/
theorem escapeByte_spec (b : UInt8) :
    escapeByte b = [b] ∧ b ≠ 34 ∧ b ≠ 92 ∧ ¬b < 32 ∨
    ∃ tail, escapeByte b = 92 :: tail ∧ ∀ rest, escape (tail ++ rest) = .ok ([b], rest) := by
  unfold escapeByte
  by_cases h34 : b = 34
  · subst h34
    exact .inr ⟨[34], rfl, fun _ => rfl⟩
  by_cases h92 : b = 92
  · subst h92
    exact .inr ⟨[92], rfl, fun _ => rfl⟩
  by_cases h8 : b = 8
  · subst h8
    exact .inr ⟨[98], rfl, fun _ => rfl⟩
  by_cases h12 : b = 12
  · subst h12
    exact .inr ⟨[102], rfl, fun _ => rfl⟩
  by_cases h10 : b = 10
  · subst h10
    exact .inr ⟨[110], rfl, fun _ => rfl⟩
  by_cases h13 : b = 13
  · subst h13
    exact .inr ⟨[114], rfl, fun _ => rfl⟩
  by_cases h9 : b = 9
  · subst h9
    exact .inr ⟨[116], rfl, fun _ => rfl⟩
  rw [if_neg h34, if_neg h92, if_neg h8, if_neg h12, if_neg h10, if_neg h13, if_neg h9]
  by_cases h32 : b < 32
  · rw [if_pos h32]
    exact .inr ⟨_, rfl, fun rest => unicodeEscape_hex h32 rest⟩
  · rw [if_neg h32]
    exact .inl ⟨rfl, h34, h92, h32⟩

/-! ## Strings -/

theorem escapeByte_ne_nil (b : UInt8) : escapeByte b ≠ [] := by
  rcases escapeByte_spec b with ⟨h, -⟩ | ⟨tail, h, -⟩ <;> rw [h] <;> exact List.cons_ne_nil _ _

theorem length_le_escaped (raw : Bytes) : raw.length ≤ (raw.flatMap escapeByte).length := by
  induction raw with
  | nil => exact Nat.le_refl _
  | cons b raw ih =>
    have hpos := List.length_pos_iff.2 (escapeByte_ne_nil b)
    rw [List.flatMap_cons, List.length_append, List.length_cons]
    omega

/-- The bytes are read one by one, each in one step. -/
theorem stringBytesAux_escaped {raw fuel : Bytes} (h : raw.length < fuel.length) (rest : Bytes) :
    stringBytesAux escape fuel (raw.flatMap escapeByte ++ 34 :: rest) = .ok (raw, rest) := by
  induction raw generalizing fuel with
  | nil =>
    cases fuel with
    | nil => cases h
    | cons f fuel => rfl
  | cons b raw ih =>
    cases fuel with
    | nil => cases h
    | cons f fuel =>
      rw [List.flatMap_cons, List.append_assoc]
      have hmore := ih (Nat.lt_of_succ_lt_succ h)
      rcases escapeByte_spec b with ⟨hself, h34, h92, h32⟩ | ⟨tail, hesc, hread⟩
      · rw [hself, List.singleton_append, stringBytesAux, if_neg h34, if_neg h92, if_neg h32, hmore]
        rfl
      · rw [hesc, List.cons_append, stringBytesAux, if_neg (by decide), if_pos rfl, hread]
        show (stringBytesAux escape fuel _ >>= _) = _
        rw [hmore]
        rfl

/-- What follows the opening quote of a text. -/
def quoted (s : String) : Bytes := (Utf8.encode s).flatMap escapeByte ++ [34]

theorem quote_eq (s : String) : quote s = 34 :: quoted s := rfl

/-- A text in quotes is read back. -/
theorem stringTail_quoted (s : String) (rest : Bytes) :
    stringTail (quoted s ++ rest) = .ok (s, rest) := by
  have hlen := length_le_escaped (Utf8.encode s)
  rw [quoted, List.append_assoc, List.singleton_append, stringTail,
    stringBytesAux_escaped (by rw [List.length_append, List.length_cons]; omega)]
  simp only [bind, Except.bind, Utf8.decode?_encode]

/-! ## Printable text -/

/-- Text without control characters. -/
structure Printable (bs : Bytes) : Prop where
  text : ∃ cs, Utf8.encodeChars cs = bs
  visible : ∀ b ∈ bs, 32 ≤ b

namespace Printable

theorem nil : Printable [] := ⟨⟨[], rfl⟩, fun _ h => nomatch h⟩

theorem append {as bs : Bytes} (ha : Printable as) (hb : Printable bs) : Printable (as ++ bs) := by
  obtain ⟨cs, hcs⟩ := ha.text
  obtain ⟨ds, hds⟩ := hb.text
  refine ⟨⟨cs ++ ds, by rw [← hcs, ← hds, Utf8.encodeChars, List.flatMap_append]; rfl⟩,
    fun b hmem => ?_⟩
  exact (List.mem_append.1 hmem).elim (ha.visible b) (hb.visible b)

theorem flatMap {α : Type} {f : α → Bytes} {xs : List α} (h : ∀ x ∈ xs, Printable (f x)) :
    Printable (xs.flatMap f) := by
  induction xs with
  | nil => exact nil
  | cons x xs ih =>
    rw [List.flatMap_cons]
    exact (h x List.mem_cons_self).append (ih fun y hy => h y (List.mem_cons_of_mem _ hy))

theorem singleton {b : UInt8} (h : 32 ≤ b) (h' : b < 128) : Printable [b] := by
  have hb : b.toNat < 128 := UInt8.lt_iff_toNat_lt.1 h'
  refine ⟨⟨[Char.ofNat b.toNat], ?_⟩, fun c hc => by rwa [List.mem_singleton.1 hc]⟩
  rw [Utf8.encodeChars, List.flatMap_singleton]
  unfold String.utf8EncodeChar
  rw [Utf8.val_ofNat (by omega)]
  simp only
  rw [if_pos (by omega), UInt8.ofNat_toNat]

theorem cons {b : UInt8} {bs : Bytes} (h : 32 ≤ b) (h' : b < 128) (hbs : Printable bs) :
    Printable (b :: bs) :=
  (singleton h h').append hbs

theorem ascii {bs : Bytes} (h : ∀ b ∈ bs, 32 ≤ b ∧ b < 128) : Printable bs := by
  induction bs with
  | nil => exact nil
  | cons b bs ih =>
    obtain ⟨hb, hb'⟩ := h b List.mem_cons_self
    exact cons hb hb' (ih fun c hc => h c (List.mem_cons_of_mem _ hc))

end Printable

/-- An escape has ASCII characters only, and so has any byte that is ASCII. -/
theorem ascii_escapeByte {b : UInt8} (h : b < 128) : ∀ c ∈ escapeByte b, 32 ≤ c ∧ c < 128 := by
  have hb : b.toNat < 128 := UInt8.lt_iff_toNat_lt.1 h
  have hall : ∀ n < 128, ∀ c ∈ escapeByte (UInt8.ofNat n), 32 ≤ c ∧ c < 128 := by decide +kernel
  have hthis := hall b.toNat hb
  rwa [UInt8.ofNat_toNat] at hthis

theorem escapeByte_of_le {b : UInt8} (h : 128 ≤ b) : escapeByte b = [b] := by
  have hb : 128 ≤ b.toNat := UInt8.le_iff_toNat_le.1 h
  have hne (c : UInt8) (hc : c.toNat < 128) : b ≠ c := fun heq => by
    rw [heq] at hb
    omega
  have hlt : ¬b < 32 := by
    rw [UInt8.lt_iff_toNat_lt]
    show ¬b.toNat < 32
    omega
  unfold escapeByte
  rw [if_neg (hne 34 (by decide)), if_neg (hne 92 (by decide)), if_neg (hne 8 (by decide)),
    if_neg (hne 12 (by decide)), if_neg (hne 10 (by decide)), if_neg (hne 13 (by decide)),
    if_neg (hne 9 (by decide)), if_neg hlt]

/-- The bytes of a character beyond ASCII are beyond ASCII, all of them. -/
theorem encodeChar_ascii_or (c : Char) : (∃ b, b < 128 ∧ String.utf8EncodeChar c = [b]) ∨
    ∀ b ∈ String.utf8EncodeChar c, 128 ≤ b := by
  have hlarge {m : Nat} (h : 128 ≤ m) (h' : m < 256) : (128 : UInt8) ≤ UInt8.ofNat m := by
    rw [UInt8.le_iff_toNat_le, Utf8.toNat_ofNat h']
    exact h
  have hrange : c.val.toNat < 0x110000 := by
    rcases c.valid with h | ⟨-, h⟩
    · exact Nat.lt_trans h (by decide)
    · exact h
  unfold String.utf8EncodeChar
  generalize c.val.toNat = v at hrange
  simp only
  by_cases h1 : v ≤ 0x7F
  · rw [if_pos h1]
    refine .inl ⟨_, ?_, rfl⟩
    rw [UInt8.lt_iff_toNat_lt, Utf8.toNat_ofNat (by omega)]
    show v < 128
    omega
  · right
    rw [if_neg h1]
    intro b hb
    by_cases h2 : v ≤ 0x7FF
    · rw [if_pos h2] at hb
      simp only [List.mem_cons, List.not_mem_nil, or_false] at hb
      rcases hb with rfl | rfl <;> exact hlarge (by omega) (by omega)
    · rw [if_neg h2] at hb
      by_cases h3 : v ≤ 0xFFFF
      · rw [if_pos h3] at hb
        simp only [List.mem_cons, List.not_mem_nil, or_false] at hb
        rcases hb with rfl | rfl | rfl <;> exact hlarge (by omega) (by omega)
      · rw [if_neg h3] at hb
        simp only [List.mem_cons, List.not_mem_nil, or_false] at hb
        rcases hb with rfl | rfl | rfl | rfl <;> exact hlarge (by omega) (by omega)

theorem printable_char (c : Char) : Printable ((String.utf8EncodeChar c).flatMap escapeByte) := by
  rcases encodeChar_ascii_or c with ⟨b, hb, hc⟩ | hlarge
  · rw [hc, List.flatMap_singleton]
    exact .ascii (ascii_escapeByte hb)
  · have hself : (String.utf8EncodeChar c).flatMap escapeByte = String.utf8EncodeChar c := by
      rw [List.flatMap_def, List.map_congr_left fun b hb => escapeByte_of_le (hlarge b hb),
        ← List.flatMap_def, List.flatMap_singleton']
    rw [hself]
    refine ⟨⟨[c], List.flatMap_singleton _ _⟩, fun b hb => ?_⟩
    exact UInt8.le_trans (by decide) (hlarge b hb)

theorem printable_quoted (s : String) : Printable (quoted s) := by
  rw [quoted, Utf8.encode, Utf8.encodeChars, List.flatMap_assoc]
  exact (Printable.flatMap fun c _ => printable_char c).append (.singleton (by decide) (by decide))

theorem printable_quote (s : String) : Printable (quote s) :=
  .cons (by decide) (by decide) (printable_quoted s)

end BucketCluster.Json
