import BucketCluster.Json.Number

/-!
# Integers are read back

`readNumber_decimal` says that the decimal digits of a number below 2^64 are read as
that number, unless more digits, a point or an exponent follow.  The digits fit the
64-bit significand at every step, since what has been gathered never goes down.  With
a sign in front this covers the integers of all machine words (`readNumber_write`).
-/

namespace BucketCluster

/-! ## Digits -/

namespace Bytes

theorem isDigit_ofNat : ∀ d < 10, isDigit (UInt8.ofNat (48 + d)) = true := by decide

theorem digitValue_ofNat : ∀ d < 10, digitValue (UInt8.ofNat (48 + d)) = d := by decide

theorem isDigit_decimalAux (fuel n : Nat) : ∀ b ∈ decimalAux fuel n, isDigit b = true := by
  induction fuel generalizing n with
  | zero => exact fun b hb => nomatch hb
  | succ fuel ih =>
    intro b hb
    rw [decimalAux] at hb
    by_cases hn : n < 10
    · rw [if_pos hn, List.mem_singleton] at hb
      rw [hb]
      exact isDigit_ofNat n hn
    · rw [if_neg hn, List.mem_append, List.mem_singleton] at hb
      rcases hb with hb | rfl
      · exact ih (n / 10) b hb
      · exact isDigit_ofNat _ (by omega)

theorem isDigit_decimal {n : Nat} {b : UInt8} (hb : b ∈ decimal n) : isDigit b = true :=
  isDigit_decimalAux (n + 1) n b hb

theorem ofDigits_decimalAux {fuel n : Nat} (h : n < fuel) : ofDigits (decimalAux fuel n) = n := by
  induction fuel generalizing n with
  | zero => omega
  | succ fuel ih =>
    rw [decimalAux]
    by_cases hn : n < 10
    · rw [if_pos hn]
      show 10 * 0 + digitValue (UInt8.ofNat (48 + n)) = n
      rw [digitValue_ofNat n hn]
      omega
    · have hfront : ofDigits (decimalAux fuel (n / 10)) = n / 10 := ih (by omega)
      rw [if_neg hn, ofDigits, List.foldl_append, ← ofDigits, hfront]
      show 10 * (n / 10) + digitValue (UInt8.ofNat (48 + n % 10)) = n
      rw [digitValue_ofNat _ (by omega)]
      omega

theorem ofDigits_decimal (n : Nat) : ofDigits (decimal n) = n := ofDigits_decimalAux (by omega)

/-- A number of two digits or more does not begin with a zero. -/
theorem decimalAux_cons {fuel n : Nat} (h : n < fuel) :
    ∃ d ds, decimalAux fuel n = d :: ds ∧ (d = 48 → n = 0) := by
  induction fuel generalizing n with
  | zero => omega
  | succ fuel ih =>
    rw [decimalAux]
    by_cases hn : n < 10
    · rw [if_pos hn]
      have hzero : ∀ m < 10, UInt8.ofNat (48 + m) = 48 → m = 0 := by decide
      exact ⟨_, [], rfl, hzero n hn⟩
    · obtain ⟨d, ds, hds, hd⟩ := ih (by omega : n / 10 < fuel)
      rw [if_neg hn, hds]
      exact ⟨d, _, rfl, fun h48 => by have := hd h48; omega⟩

theorem decimal_cons (n : Nat) : ∃ d ds, decimal n = d :: ds ∧ isDigit d = true ∧
    (d = 48 → n = 0) := by
  obtain ⟨d, ds, hds, hd⟩ := decimalAux_cons (Nat.lt_succ_self n)
  exact ⟨d, ds, hds, isDigit_decimal (by rw [decimal, hds]; exact List.mem_cons_self), hd⟩

end Bytes

namespace Json

/-! ## Reading -/

/-- Nothing that continues a number comes first. -/
def EndsNumber (rest : Bytes) : Prop :=
  ∀ b ∈ rest.head?, Bytes.isDigit b = false ∧ b ≠ 46 ∧ b ≠ 101 ∧ b ≠ 69

theorem EndsNumber.nil : EndsNumber [] := fun _ h => nomatch h

theorem EndsNumber.cons {b : UInt8} (h : Bytes.isDigit b = false ∧ b ≠ 46 ∧ b ≠ 101 ∧ b ≠ 69)
    (bs : Bytes) : EndsNumber (b :: bs) := fun c hc => by
  cases hc
  exact h

/-- What digits amount to after those before them. -/
theorem le_foldl_digits (ds : Bytes) (n : Nat) :
    n ≤ ds.foldl (fun n d => 10 * n + Bytes.digitValue d) n := by
  induction ds generalizing n with
  | nil => exact Nat.le_refl _
  | cons d ds ih =>
    have hmore := ih (10 * n + Bytes.digitValue d)
    rw [List.foldl_cons]
    omega

theorem gather_digits {ds rest : Bytes} {n : Nat} (hds : ∀ d ∈ ds, Bytes.isDigit d = true)
    (hbound : ds.foldl (fun n d => 10 * n + Bytes.digitValue d) n < UInt64.size)
    (hrest : EndsNumber rest) :
    gather n (ds ++ rest) = (ds.foldl (fun n d => 10 * n + Bytes.digitValue d) n, rest) := by
  induction ds generalizing n with
  | nil =>
    cases rest with
    | nil => rfl
    | cons b rest =>
      have hb := (hrest b rfl).1
      rw [List.nil_append, gather, hb]
      rfl
  | cons d ds ih =>
    have hd := hds d List.mem_cons_self
    have hle := le_foldl_digits ds (10 * n + Bytes.digitValue d)
    rw [List.foldl_cons] at hbound ⊢
    have hnext : (Bytes.isDigit d && decide (10 * n + Bytes.digitValue d < UInt64.size)) =
        true := by
      rw [hd, Bool.true_and, decide_eq_true_eq]
      omega
    rw [List.cons_append, gather]
    simp only [hnext, if_true]
    exact ih (fun c hc => hds c (List.mem_cons_of_mem _ hc)) hbound

/-- No digit comes first. -/
theorem EndsNumber.spanDigits {rest : Bytes} (h : EndsNumber rest) :
    Number.spanDigits rest = ([], rest) := by
  unfold Number.spanDigits
  cases rest with
  | nil => rfl
  | cons b rest =>
    have hb := (h b rfl).1
    rw [List.takeWhile_cons_of_neg (by rw [hb]; decide),
      List.dropWhile_cons_of_neg (by rw [hb]; decide)]

/-- The digits of a number, behind its sign. -/
theorem numberTail_decimal (minus : Bool) {n : Nat} (h : n < UInt64.size) {rest : Bytes}
    (hrest : EndsNumber rest) : numberTail minus (Bytes.decimal n ++ rest) =
      if minus = false then .ok (.integer n, rest)
      else if n = 0 ∨ 0x8000000000000000 < n then .ok (.real (Binary64.ofNat n).neg, rest)
      else .ok (.integer (-n), rest) := by
  obtain ⟨d, ds, hds, hdigit, hzero⟩ := Bytes.decimal_cons n
  have hgather : gather 0 (d :: (ds ++ rest)) = (n, rest) := by
    have hvalue : (Bytes.decimal n).foldl (fun n d => 10 * n + Bytes.digitValue d) 0 = n :=
      Bytes.ofDigits_decimal n
    have hthis :=
      gather_digits (fun b hb => Bytes.isDigit_decimal hb) (by rw [hvalue]; exact h) hrest
    rwa [hvalue, hds] at hthis
  -- a leading zero is the only digit
  have hlead : (d = 48 && ((ds ++ rest).head?.map Bytes.isDigit).getD false) = false := by
    by_cases h48 : d = 48
    · have hn := hzero h48
      subst hn
      have hnil : ds = [] := (List.cons.inj hds).2.symm
      subst hnil
      rw [List.nil_append, Bool.and_eq_false_iff]
      right
      cases rest with
      | nil => rfl
      | cons b rest => exact (hrest b rfl).1
    · simp [h48]
  rw [hds, List.cons_append]
  unfold numberTail
  simp only [hdigit, hgather, hrest.spanDigits, hlead, Bool.not_true, Bool.false_eq_true, if_false,
    List.isEmpty_nil]
  split
  · exact absurd rfl (hrest 46 rfl).2.1
  · exact absurd rfl (hrest 101 rfl).2.2.1
  · exact absurd rfl (hrest 69 rfl).2.2.2
  · cases minus with
    | false => rfl
    | true => simp

/-- The digits of a number are read as the number. -/
theorem readNumber_decimal {n : Nat} (h : n < UInt64.size) {rest : Bytes}
    (hrest : EndsNumber rest) : readNumber (Bytes.decimal n ++ rest) = .ok (.integer n, rest) := by
  have htail := numberTail_decimal false h hrest
  obtain ⟨d, ds, hds, hdigit, -⟩ := Bytes.decimal_cons n
  have hminus : d ≠ 45 := fun h45 => by
    rw [h45] at hdigit
    cases hdigit
  rw [hds, List.cons_append] at htail ⊢
  rw [readNumber, htail, if_pos rfl]
  exact fun bs hbs => hminus (List.cons.inj hbs).1

/-! ## Whole numbers -/

/-- An integer of a machine word with or without sign, from -2^63 up to below 2^64.  Zero
may have a minus sign in front, which makes it a real. -/
def Number.IsWhole : Number → Prop
  | .integer n => -9223372036854775808 ≤ n ∧ n < 18446744073709551616
  | .real x => x = ⟨true, 0⟩

/-- Zero with a minus sign is written with a decimal. -/
theorem readNumber_negativeZero {rest : Bytes} (hrest : EndsNumber rest) :
    readNumber ([45, 48, 46, 48] ++ rest) = .ok (.real ⟨true, 0⟩, rest) := by
  have hdigits : Number.spanDigits (48 :: rest) = ([48], rest) := by
    have hnone := hrest.spanDigits
    rw [Number.spanDigits, Prod.mk.injEq] at hnone ⊢
    rw [List.takeWhile_cons_of_pos (by decide), List.dropWhile_cons_of_pos (by decide),
      hnone.1, hnone.2]
    exact ⟨rfl, rfl⟩
  have hscale : scale 0 (-1) = .ok ⟨false, 0⟩ := by
    have hzero : Binary64.ofNat 0 = ⟨false, 0⟩ := by decide +kernel
    rw [scale, hzero]
    rfl
  have hexponent : exponentTail 0 (-1) rest = .ok (⟨false, 0⟩, rest) := by
    cases rest with
    | nil => rw [exponentTail, hscale]; rfl
    | cons b rest =>
      have hb := (hrest b rfl).2.2
      rw [exponentTail, if_neg (by simp [hb]), hscale]
      rfl
  have hfraction : fractionPart 0 0 (48 :: rest) = .ok (⟨false, 0⟩, rest) := by
    unfold fractionPart
    rw [hdigits]
    exact hexponent
  have htail : numberTail true (48 :: 46 :: 48 :: rest) = .ok (.real ⟨true, 0⟩, rest) := by
    show (fractionPart 0 0 (48 :: rest)).map _ = _
    rw [hfraction]
    rfl
  exact htail

/-- A whole number is read as it was written. -/
theorem readNumber_write {n : Number} (h : n.IsWhole) {rest : Bytes} (hrest : EndsNumber rest) :
    readNumber (n.write ++ rest) = .ok (n, rest) := by
  cases n with
  | integer n =>
    obtain ⟨hlow, hhigh⟩ := h
    rw [Number.write, Bytes.decimalInt]
    by_cases hn : n < 0
    · have htail :=
        numberTail_decimal true (show n.natAbs < UInt64.size by simp only [UInt64.size]; omega)
          hrest
      have hvalue : -(n.natAbs : Int) = n := by omega
      rw [if_neg (by decide), if_neg (by omega), hvalue] at htail
      rw [if_pos hn, List.cons_append]
      exact htail
    · have hread :=
        readNumber_decimal (show n.natAbs < UInt64.size by simp only [UInt64.size]; omega) hrest
      have hvalue : (n.natAbs : Int) = n := by omega
      rw [if_neg hn, hread, hvalue]
  | real x =>
    cases h
    exact readNumber_negativeZero hrest

/-- What is written begins with a sign or a digit. -/
theorem Number.write_cons {n : Number} (h : n.IsWhole) :
    ∃ b bs, n.write = b :: bs ∧ (b = 45 ∨ Bytes.isDigit b = true) := by
  cases n with
  | integer n =>
    rw [Number.write, Bytes.decimalInt]
    by_cases hn : n < 0
    · exact ⟨45, _, if_pos hn, .inl rfl⟩
    · obtain ⟨d, ds, hds, hdigit, -⟩ := Bytes.decimal_cons n.natAbs
      exact ⟨d, ds, by rw [if_neg hn, hds], .inr hdigit⟩
  | real x =>
    cases h
    exact ⟨45, _, rfl, .inl rfl⟩

end Json

end BucketCluster
