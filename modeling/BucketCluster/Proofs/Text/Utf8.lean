import BucketCluster.Text.Utf8

/-!
# UTF-8 is read back

`decode?_encode` says that reading what was written gives the text back.  A first
byte leads into a state that allows exactly the second bytes that can follow it,
and from there on every byte adds six bits.  Nothing else is read: bytes that are a
text are the bytes of that text (`encode_of_decode?`).
-/

namespace BucketCluster.Utf8

/-! ## Bytes as numbers -/

theorem toNat_ofNat {m : Nat} (h : m < 256) : (UInt8.ofNat m).toNat = m := by
  rw [UInt8.toNat_ofNat']
  omega

/-- What a first byte leads to, in numbers. -/
theorem lead_ofNat {m : Nat} (h : m < 256) : lead (UInt8.ofNat m) =
    if m < 0x80 then some (.inl (Char.ofNat m))
    else if m < 0xC2 then none
    else if m < 0xE0 then some (.inr (.inside (m - 0xC0) 1 0x80 0xBF))
    else if m = 0xE0 then some (.inr (.inside 0 2 0xA0 0xBF))
    else if m = 0xED then some (.inr (.inside 13 2 0x80 0x9F))
    else if m < 0xF0 then some (.inr (.inside (m - 0xE0) 2 0x80 0xBF))
    else if m = 0xF0 then some (.inr (.inside 0 3 0x90 0xBF))
    else if m < 0xF4 then some (.inr (.inside (m - 0xF0) 3 0x80 0xBF))
    else if m = 0xF4 then some (.inr (.inside 4 3 0x80 0x8F))
    else none := by
  unfold lead
  simp only [UInt8.lt_iff_toNat_lt, ← UInt8.toNat_inj, toNat_ofNat h]
  rfl

/-- A byte inside a character adds six bits. -/
theorem pieces_inside {bits need m : Nat} {low high : UInt8} (bs : Bytes) (h : m < 256)
    (hlow : low.toNat ≤ m) (hhigh : m ≤ high.toNat) :
    pieces (.inside bits need low high) (UInt8.ofNat m :: bs) =
      if need ≤ 1 then some (Char.ofNat (64 * bits + m % 64)) :: pieces .start bs
      else pieces (.inside (64 * bits + m % 64) (need - 1) 0x80 0xBF) bs := by
  have hin : (decide (low ≤ UInt8.ofNat m) && decide (UInt8.ofNat m ≤ high)) = true := by
    simp [UInt8.le_iff_toNat_le, toNat_ofNat h, hlow, hhigh]
  rw [pieces, if_pos hin, toNat_ofNat h]

theorem pieces_of_lead {b : UInt8} {st : State} (bs : Bytes) (h : lead b = some (.inr st)) :
    pieces .start (b :: bs) = pieces st bs := by
  rw [pieces, h]

/-! ## Characters -/

theorem pieces_two {v : Nat} (bs : Bytes) (h : 0x80 ≤ v) (h' : v ≤ 0x7FF) :
    pieces .start (UInt8.ofNat (v / 64 % 32 + 0xC0) :: UInt8.ofNat (v % 64 + 0x80) :: bs) =
      some (Char.ofNat v) :: pieces .start bs := by
  have hlead : lead (UInt8.ofNat (v / 64 % 32 + 0xC0)) =
      some (.inr (.inside (v / 64) 1 0x80 0xBF)) := by
    rw [lead_ofNat (by omega), if_neg (by omega), if_neg (by omega), if_pos (by omega)]
    have hbits : v / 64 % 32 + 0xC0 - 0xC0 = v / 64 := by omega
    rw [hbits]
  have hv : 64 * (v / 64) + (v % 64 + 0x80) % 64 = v := by omega
  rw [pieces_of_lead _ hlead,
    pieces_inside _ (by omega) (by change 0x80 ≤ _; omega) (by change _ ≤ 0xBF; omega),
      if_pos (by omega), hv]

theorem pieces_three {v : Nat} (bs : Bytes) (h : 0x800 ≤ v) (h' : v ≤ 0xFFFF)
    (hs : v < 0xD800 ∨ 0xDFFF < v) :
    pieces .start (UInt8.ofNat (v / 4096 % 16 + 0xE0) :: UInt8.ofNat (v / 64 % 64 + 0x80) ::
      UInt8.ofNat (v % 64 + 0x80) :: bs) = some (Char.ofNat v) :: pieces .start bs := by
  -- the first byte restricts the second where short forms and surrogates would follow
  have hlead : ∃ low high : UInt8,
      lead (UInt8.ofNat (v / 4096 % 16 + 0xE0)) = some (.inr (.inside (v / 4096) 2 low high)) ∧
        low.toNat ≤ v / 64 % 64 + 0x80 ∧ v / 64 % 64 + 0x80 ≤ high.toNat := by
    rw [lead_ofNat (by omega), if_neg (by omega), if_neg (by omega), if_neg (by omega)]
    by_cases he0 : v / 4096 % 16 + 0xE0 = 0xE0
    · have hbits : v / 4096 = 0 := by omega
      rw [if_pos he0, hbits]
      exact ⟨0xA0, 0xBF, rfl, by change 0xA0 ≤ _; omega, by change _ ≤ 0xBF; omega⟩
    · rw [if_neg he0]
      by_cases hed : v / 4096 % 16 + 0xE0 = 0xED
      · have hbits : v / 4096 = 13 := by omega
        rw [if_pos hed, hbits]
        exact ⟨0x80, 0x9F, rfl, by change 0x80 ≤ _; omega, by change _ ≤ 0x9F; omega⟩
      · have hbits : v / 4096 % 16 + 0xE0 - 0xE0 = v / 4096 := by omega
        rw [if_neg hed, if_pos (by omega), hbits]
        exact ⟨0x80, 0xBF, rfl, by change 0x80 ≤ _; omega, by change _ ≤ 0xBF; omega⟩
  obtain ⟨low, high, hlead, hlow, hhigh⟩ := hlead
  have hv : 64 * (64 * (v / 4096) + (v / 64 % 64 + 0x80) % 64) + (v % 64 + 0x80) % 64 = v := by
    omega
  rw [pieces_of_lead _ hlead, pieces_inside _ (by omega) hlow hhigh, if_neg (by omega),
    pieces_inside _ (by omega) (by change 0x80 ≤ _; omega) (by change _ ≤ 0xBF; omega),
      if_pos (by omega), hv]

theorem pieces_four {v : Nat} (bs : Bytes) (h : 0x10000 ≤ v) (h' : v < 0x110000) :
    pieces .start (UInt8.ofNat (v / 262144 % 8 + 0xF0) :: UInt8.ofNat (v / 4096 % 64 + 0x80) ::
      UInt8.ofNat (v / 64 % 64 + 0x80) :: UInt8.ofNat (v % 64 + 0x80) :: bs) =
        some (Char.ofNat v) :: pieces .start bs := by
  have hlead : ∃ low high : UInt8,
      lead (UInt8.ofNat (v / 262144 % 8 + 0xF0)) = some (.inr (.inside (v / 262144) 3 low high)) ∧
        low.toNat ≤ v / 4096 % 64 + 0x80 ∧ v / 4096 % 64 + 0x80 ≤ high.toNat := by
    rw [lead_ofNat (by omega), if_neg (by omega), if_neg (by omega), if_neg (by omega),
      if_neg (by omega), if_neg (by omega), if_neg (by omega)]
    by_cases hf0 : v / 262144 % 8 + 0xF0 = 0xF0
    · have hbits : v / 262144 = 0 := by omega
      rw [if_pos hf0, hbits]
      exact ⟨0x90, 0xBF, rfl, by change 0x90 ≤ _; omega, by change _ ≤ 0xBF; omega⟩
    · rw [if_neg hf0]
      by_cases hf4 : v / 262144 % 8 + 0xF0 = 0xF4
      · have hbits : v / 262144 = 4 := by omega
        rw [if_neg (by omega), if_pos hf4, hbits]
        exact ⟨0x80, 0x8F, rfl, by change 0x80 ≤ _; omega, by change _ ≤ 0x8F; omega⟩
      · have hbits : v / 262144 % 8 + 0xF0 - 0xF0 = v / 262144 := by omega
        rw [if_pos (by omega), hbits]
        exact ⟨0x80, 0xBF, rfl, by change 0x80 ≤ _; omega, by change _ ≤ 0xBF; omega⟩
  obtain ⟨low, high, hlead, hlow, hhigh⟩ := hlead
  have hv :
    64 * (64 * (64 * (v / 262144) + (v / 4096 % 64 + 0x80) % 64) + (v / 64 % 64 + 0x80) % 64) +
      (v % 64 + 0x80) % 64 = v := by omega
  rw [pieces_of_lead _ hlead, pieces_inside _ (by omega) hlow hhigh, if_neg (by omega),
    pieces_inside _ (by omega) (by change 0x80 ≤ _; omega) (by change _ ≤ 0xBF; omega),
      if_neg (by omega),
    pieces_inside _ (by omega) (by change 0x80 ≤ _; omega) (by change _ ≤ 0xBF; omega),
      if_pos (by omega), hv]

theorem pieces_encodeChar (c : Char) (bs : Bytes) :
    pieces .start (String.utf8EncodeChar c ++ bs) = some c :: pieces .start bs := by
  have hc : Char.ofNat c.val.toNat = c := Char.ofNat_toNat c
  have hrange : c.val.toNat < 0xD800 ∨ 0xDFFF < c.val.toNat ∧ c.val.toNat < 0x110000 := c.valid
  unfold String.utf8EncodeChar
  generalize c.val.toNat = v at hc hrange
  simp only
  by_cases h1 : v ≤ 0x7F
  · have hlead : lead (UInt8.ofNat v) = some (.inl c) := by
      rw [lead_ofNat (by omega), if_pos (by omega), hc]
    rw [if_pos h1, List.singleton_append, pieces, hlead]
  · rw [if_neg h1]
    by_cases h2 : v ≤ 0x7FF
    · rw [if_pos h2]
      exact (pieces_two bs (by omega) h2).trans (by rw [hc])
    · rw [if_neg h2]
      by_cases h3 : v ≤ 0xFFFF
      · rw [if_pos h3]
        exact (pieces_three bs (by omega) h3 (by omega)).trans (by rw [hc])
      · rw [if_neg h3]
        exact (pieces_four bs (by omega) (by omega)).trans (by rw [hc])

/-! ## Texts -/

theorem pieces_encodeChars (cs : List Char) : pieces .start (encodeChars cs) = cs.map some := by
  induction cs with
  | nil => rfl
  | cons c cs ih =>
    rw [encodeChars, List.flatMap_cons, pieces_encodeChar]
    exact congrArg _ ih

/-- What was written is read back. -/
theorem decode?_encode (s : String) : decode? (encode s) = some s := by
  have hpieces : ∀ cs : List Char, (cs.map some).mapM id = some cs := by
    intro cs
    induction cs with
    | nil => rfl
    | cons c cs ih => rw [List.map_cons, List.mapM_cons, ih]; rfl
  rw [decode?, encode, pieces_encodeChars, hpieces, Option.map_some, String.ofList_toList]

/-! ## Nothing else is read -/

theorem val_ofNat {v : Nat} (h : v < 0xD800 ∨ 0xDFFF < v ∧ v < 0x110000) :
    (Char.ofNat v).val.toNat = v := by
  have hv : v.isValidChar := h
  rw [Char.ofNat, dif_pos hv]
  rfl

/-- A character that began is completed by bytes that are allowed there. -/
theorem of_pieces_inside {bits need : Nat} {low high : UInt8} {bs : Bytes} {cs : List Char}
    (h : pieces (.inside bits need low high) bs = cs.map some) :
    ∃ m rest, bs = UInt8.ofNat m :: rest ∧ m < 256 ∧ low.toNat ≤ m ∧ m ≤ high.toNat ∧
      (if need ≤ 1 then some (Char.ofNat (64 * bits + m % 64)) :: pieces .start rest
        else pieces (.inside (64 * bits + m % 64) (need - 1) 0x80 0xBF) rest) = cs.map some := by
  cases bs with
  | nil =>
    rw [pieces] at h
    cases cs <;> simp at h
  | cons b rest =>
    rw [pieces] at h
    by_cases hin : (decide (low ≤ b) && decide (b ≤ high)) = true
    · rw [if_pos hin] at h
      simp only [Bool.and_eq_true, decide_eq_true_eq, UInt8.le_iff_toNat_le] at hin
      exact ⟨b.toNat, rest, by rw [UInt8.ofNat_toNat], b.toNat_lt, hin.1, hin.2, h⟩
    · rw [if_neg hin] at h
      cases cs <;> simp at h

theorem lead_three {m : Nat} (h : 0xE0 ≤ m) (h' : m ≤ 0xEF) : ∃ low high : UInt8,
    lead (UInt8.ofNat m) = some (.inr (.inside (m - 0xE0) 2 low high)) ∧ 0x80 ≤ low.toNat ∧
    high.toNat ≤ 0xBF ∧
      (m = 0xE0 → 0xA0 ≤ low.toNat) ∧ (m = 0xED → high.toNat ≤ 0x9F) := by
  rw [lead_ofNat (by omega), if_neg (by omega), if_neg (by omega), if_neg (by omega)]
  by_cases he0 : m = 0xE0
  · subst he0
    exact ⟨0xA0, 0xBF, rfl, by decide, by decide, by decide, by decide⟩
  · by_cases hed : m = 0xED
    · subst hed
      exact ⟨0x80, 0x9F, rfl, by decide, by decide, by decide, by decide⟩
    · rw [if_neg he0, if_neg hed, if_pos (by omega)]
      exact ⟨0x80, 0xBF, rfl, by decide, by decide, fun h => absurd h he0, fun h => absurd h hed⟩

theorem lead_four {m : Nat} (h : 0xF0 ≤ m) (h' : m ≤ 0xF4) : ∃ low high : UInt8,
    lead (UInt8.ofNat m) = some (.inr (.inside (m - 0xF0) 3 low high)) ∧ 0x80 ≤ low.toNat ∧
    high.toNat ≤ 0xBF ∧
      (m = 0xF0 → 0x90 ≤ low.toNat) ∧ (m = 0xF4 → high.toNat ≤ 0x8F) := by
  rw [lead_ofNat (by omega), if_neg (by omega), if_neg (by omega), if_neg (by omega),
    if_neg (by omega), if_neg (by omega), if_neg (by omega)]
  by_cases hf0 : m = 0xF0
  · subst hf0
    exact ⟨0x90, 0xBF, rfl, by decide, by decide, by decide, by decide⟩
  · by_cases hf4 : m = 0xF4
    · subst hf4
      exact ⟨0x80, 0x8F, rfl, by decide, by decide, by decide, by decide⟩
    · rw [if_neg hf0, if_pos (by omega)]
      exact ⟨0x80, 0xBF, rfl, by decide, by decide, fun h => absurd h hf0, fun h => absurd h hf4⟩

theorem encodeChar_two {a b : Nat} (ha : 0xC2 ≤ a) (ha' : a < 0xE0) (hb : 0x80 ≤ b)
    (hb' : b ≤ 0xBF) :
    String.utf8EncodeChar (Char.ofNat (64 * (a - 0xC0) + b % 64)) =
      [UInt8.ofNat a, UInt8.ofNat b] := by
  unfold String.utf8EncodeChar
  rw [val_ofNat (by omega)]
  have hfirst : (64 * (a - 0xC0) + b % 64) / 64 % 32 + 192 = a := by omega
  have hsecond : (64 * (a - 0xC0) + b % 64) % 64 + 128 = b := by omega
  simp only
  rw [if_neg (by omega), if_pos (by omega), hfirst, hsecond]

theorem encodeChar_three {a b c : Nat} (ha : 0xE0 ≤ a) (ha' : a ≤ 0xEF) (hb : 0x80 ≤ b)
    (hb' : b ≤ 0xBF) (hc : 0x80 ≤ c) (hc' : c ≤ 0xBF) (he0 : a = 0xE0 → 0xA0 ≤ b)
    (hed : a = 0xED → b ≤ 0x9F) :
    String.utf8EncodeChar (Char.ofNat (64 * (64 * (a - 0xE0) + b % 64) + c % 64)) =
      [UInt8.ofNat a, UInt8.ofNat b, UInt8.ofNat c] := by
  unfold String.utf8EncodeChar
  rw [val_ofNat (by omega)]
  have hfirst : (64 * (64 * (a - 0xE0) + b % 64) + c % 64) / 4096 % 16 + 224 = a := by omega
  have hsecond : (64 * (64 * (a - 0xE0) + b % 64) + c % 64) / 64 % 64 + 128 = b := by omega
  have hthird : (64 * (64 * (a - 0xE0) + b % 64) + c % 64) % 64 + 128 = c := by omega
  simp only
  rw [if_neg (by omega), if_neg (by omega), if_pos (by omega), hfirst, hsecond, hthird]

theorem encodeChar_four {a b c d : Nat} (ha : 0xF0 ≤ a) (ha' : a ≤ 0xF4) (hb : 0x80 ≤ b)
    (hb' : b ≤ 0xBF) (hc : 0x80 ≤ c) (hc' : c ≤ 0xBF) (hd : 0x80 ≤ d) (hd' : d ≤ 0xBF)
    (hf0 : a = 0xF0 → 0x90 ≤ b)
    (hf4 : a = 0xF4 → b ≤ 0x8F) :
    String.utf8EncodeChar (Char.ofNat (64 * (64 * (64 * (a - 0xF0) + b % 64) + c % 64) + d % 64)) =
      [UInt8.ofNat a, UInt8.ofNat b, UInt8.ofNat c, UInt8.ofNat d] := by
  unfold String.utf8EncodeChar
  rw [val_ofNat (by omega)]
  have hfirst : (64 * (64 * (64 * (a - 0xF0) + b % 64) + c % 64) + d % 64) / 262144 % 8 + 240 =
    a := by omega
  have hsecond : (64 * (64 * (64 * (a - 0xF0) + b % 64) + c % 64) + d % 64) / 4096 % 64 + 128 =
    b := by omega
  have hthird : (64 * (64 * (64 * (a - 0xF0) + b % 64) + c % 64) + d % 64) / 64 % 64 + 128 = c := by
    omega
  have hfourth : (64 * (64 * (64 * (a - 0xF0) + b % 64) + c % 64) + d % 64) % 64 + 128 = d := by
    omega
  simp only
  rw [if_neg (by omega), if_neg (by omega), if_neg (by omega), hfirst, hsecond, hthird, hfourth]

/-- The first character is written the way it was read. -/
theorem of_pieces_start {b : UInt8} {bs : Bytes} {cs : List Char}
    (h : pieces .start (b :: bs) = cs.map some) :
    ∃ c more rest, cs = c :: more ∧ b :: bs = String.utf8EncodeChar c ++ rest ∧
      pieces .start rest = more.map some := by
  have hsplit {c : Char} {rest : Bytes} (h : some c :: pieces .start rest = cs.map some) :
      ∃ more, cs = c :: more ∧ pieces .start rest = more.map some := by
    cases cs with
    | nil => cases h
    | cons c' more =>
      obtain ⟨hc, hmore⟩ := List.cons.inj h
      cases hc
      exact ⟨more, rfl, hmore⟩
  obtain ⟨a, ha, rfl⟩ : ∃ a, a < 256 ∧ b = UInt8.ofNat a :=
    ⟨b.toNat, b.toNat_lt, by rw [UInt8.ofNat_toNat]⟩
  by_cases h1 : a < 0x80
  · have hlead : lead (UInt8.ofNat a) = some (.inl (Char.ofNat a)) := by
      rw [lead_ofNat ha, if_pos h1]
    rw [pieces, hlead] at h
    obtain ⟨more, hcs, hmore⟩ := hsplit h
    refine ⟨_, more, bs, hcs, ?_, hmore⟩
    unfold String.utf8EncodeChar
    rw [val_ofNat (by omega)]
    simp only
    rw [if_pos (by omega), List.singleton_append]
  by_cases h2 : 0xC2 ≤ a ∧ a < 0xE0
  · have hlead : lead (UInt8.ofNat a) = some (.inr (.inside (a - 0xC0) 1 0x80 0xBF)) := by
      rw [lead_ofNat ha, if_neg h1, if_neg (by omega), if_pos h2.2]
    rw [pieces, hlead] at h
    obtain ⟨b₁, rest, rfl, -, hlow, hhigh, h⟩ := of_pieces_inside h
    obtain ⟨more, hcs, hmore⟩ := hsplit h
    refine ⟨_, more, rest, hcs, ?_, hmore⟩
    rw [encodeChar_two h2.1 h2.2 hlow hhigh, List.cons_append, List.singleton_append]
  by_cases h3 : 0xE0 ≤ a ∧ a ≤ 0xEF
  · obtain ⟨low, high, hlead, hlow, hhigh, he0, hed⟩ := lead_three h3.1 h3.2
    rw [pieces, hlead] at h
    obtain ⟨b₁, rest, rfl, -, hlow₁, hhigh₁, h⟩ := of_pieces_inside h
    obtain ⟨b₂, rest, rfl, -, hlow₂, hhigh₂, h⟩ := of_pieces_inside h
    obtain ⟨more, hcs, hmore⟩ := hsplit h
    refine ⟨_, more, rest, hcs, ?_, hmore⟩
    rw [encodeChar_three h3.1 h3.2 (by omega) (by omega) hlow₂ hhigh₂ (by omega) (by omega)]
    rfl
  by_cases h4 : 0xF0 ≤ a ∧ a ≤ 0xF4
  · obtain ⟨low, high, hlead, hlow, hhigh, hf0, hf4⟩ := lead_four h4.1 h4.2
    rw [pieces, hlead] at h
    obtain ⟨b₁, rest, rfl, -, hlow₁, hhigh₁, h⟩ := of_pieces_inside h
    obtain ⟨b₂, rest, rfl, -, hlow₂, hhigh₂, h⟩ := of_pieces_inside h
    obtain ⟨b₃, rest, rfl, -, hlow₃, hhigh₃, h⟩ := of_pieces_inside h
    obtain ⟨more, hcs, hmore⟩ := hsplit h
    refine ⟨_, more, rest, hcs, ?_, hmore⟩
    rw [encodeChar_four h4.1 h4.2 (by omega) (by omega) hlow₂ hhigh₂ hlow₃ hhigh₃ (by omega)
      (by omega)]
    rfl
  · have hlead : lead (UInt8.ofNat a) = none := by
      rw [lead_ofNat ha, if_neg h1]
      by_cases h5 : a < 0xC2
      · rw [if_pos h5]
      · rw [if_neg h5, if_neg (by omega), if_neg (by omega), if_neg (by omega), if_neg (by omega),
          if_neg (by omega), if_neg (by omega), if_neg (by omega)]
    rw [pieces, hlead] at h
    cases cs <;> cases h

theorem encodeChars_of_pieces {bs : Bytes} {cs : List Char} (h : pieces .start bs = cs.map some) :
    encodeChars cs = bs := by
  induction cs generalizing bs with
  | nil =>
    cases bs with
    | nil => rfl
    | cons b bs =>
      obtain ⟨c, more, rest, hcs, -, -⟩ := of_pieces_start h
      cases hcs
  | cons c cs ih =>
    cases bs with
    | nil => cases h
    | cons b bs =>
      obtain ⟨c', more, rest, hcs, hbs, hrest⟩ := of_pieces_start h
      cases hcs
      rw [hbs, encodeChars, List.flatMap_cons]
      exact congrArg _ (ih hrest)

/-- Bytes that are read as a text are the bytes of that text. -/
theorem encode_of_decode? {bs : Bytes} {s : String} (h : decode? bs = some s) : encode s = bs := by
  have hall : ∀ {ps : List (Option Char)} {cs : List Char}, ps.mapM id = some cs →
      ps = cs.map some := by
    intro ps
    induction ps with
    | nil =>
      intro cs h
      cases h
      rfl
    | cons p ps ih =>
      intro cs h
      rw [List.mapM_cons] at h
      cases p with
      | none => cases h
      | some c =>
        cases hps : ps.mapM id with
        | none =>
          rw [hps] at h
          cases h
        | some more =>
          rw [hps] at h
          cases h
          rw [List.map_cons, ← ih hps]
  rw [decode?, Option.map_eq_some_iff] at h
  obtain ⟨cs, hcs, rfl⟩ := h
  rw [encode, String.toList_ofList]
  exact encodeChars_of_pieces (hall hcs)

end BucketCluster.Utf8
