import BucketCluster.Predicate
import BucketCluster.Proofs.Text.Blank

/-!
# How predicates are written

A text spells a predicate if it has the name of the condition, with blanks around it or
without, in front of its first colon, and the expression behind that.  Reading finds the
predicate that a text spells, and of texts that spell none it finds nothing
(`parse?_eq_some_iff`).  Its own text spells a predicate if any does, so what has been read
can be shown and read again (`shown_reads_back`).
-/

namespace BucketCluster.Predicate

variable {s name expression : String} {p : Predicate}

/-- Some text spells a predicate of this name: there is a name, without a colon in it and
without blanks at its ends. -/
structure Nameable (p : Predicate) : Prop where
  nonempty : p.condition ≠ ""
  colonless : ':' ∉ p.condition.toList
  trimmed : Text.Trimmed p.condition

/-- Looks at the name. -/
instance (p : Predicate) : Decidable p.Nameable :=
  decidable_of_iff (p.condition ≠ "" ∧ ':' ∉ p.condition.toList ∧ Text.Trimmed p.condition)
    ⟨fun h => ⟨h.1, h.2.1, h.2.2⟩, fun h => ⟨h.nonempty, h.colonless, h.trimmed⟩⟩

/-- The condition stands in front of the first colon, and all that follows is the expression. -/
def Spells (s : String) (p : Predicate) : Prop :=
  ∃ name, ':' ∉ name.toList ∧ s = name ++ ":" ++ p.expression ∧ Text.Pads name p.condition

/-! ## Reading -/

theorem parse?_append (hcolon : ':' ∉ name.toList) (hname : ¬Text.Blank name) :
    parse? (name ++ ":" ++ expression) = some ⟨Text.trim name, expression⟩ := by
  have hcut : Text.cut ':' (name ++ ":" ++ expression) = some (name, expression) :=
    Text.cut_eq_some_iff.2 ⟨hcolon, rfl⟩
  unfold parse?
  simp only [hcut]
  exact if_neg fun hempty => hname (Text.isEmpty_trim.1 hempty)

theorem of_parse? (h : parse? s = some p) : ∃ name, ':' ∉ name.toList ∧ ¬Text.Blank name ∧
    s = name ++ ":" ++ p.expression ∧ Text.trim name = p.condition := by
  unfold parse? at h
  cases hcut : Text.cut ':' s with
  | none =>
    rw [hcut] at h
    cases h
  | some parts =>
    obtain ⟨name, expression⟩ := parts
    obtain ⟨hcolon, hs⟩ := Text.cut_eq_some_iff.1 hcut
    simp only [hcut] at h
    split at h
    case isTrue => cases h
    case isFalse hname =>
      cases h
      exact ⟨name, hcolon, fun hblank => hname (Text.isEmpty_trim.2 hblank), hs, rfl⟩

/-- **What is read.**  Reading finds the predicate that the text spells. -/
theorem parse?_eq_some_iff : parse? s = some p ↔ p.Nameable ∧ Spells s p := by
  constructor
  · intro h
    obtain ⟨name, hcolon, hname, hs, htrim⟩ := of_parse? h
    obtain ⟨htrimmed, hpads⟩ := Text.trim_eq_iff.1 htrim
    refine ⟨⟨?_, ?_, htrimmed⟩, name, hcolon, hs, hpads⟩
    · rw [← htrim]
      exact fun hempty => hname (Text.isEmpty_trim.1 (String.isEmpty_iff.2 hempty))
    · -- trimming adds nothing, so no colon
      obtain ⟨left, right, -, -, rfl⟩ := hpads
      simp only [String.toList_append, List.mem_append, not_or] at hcolon
      exact hcolon.1.2
  · rintro ⟨hp, name, hcolon, rfl, hpads⟩
    have htrim : Text.trim name = p.condition := Text.trim_eq_iff.2 ⟨hp.trimmed, hpads⟩
    rw [parse?_append hcolon, htrim]
    intro hblank
    refine hp.nonempty ?_
    rw [← htrim]
    exact String.isEmpty_iff.1 (Text.isEmpty_trim.2 hblank)

/-- A text is read if there is a colon, and in front of the first one something that
is not blank. -/
theorem isSome_parse?_iff : (parse? s).isSome = true ↔
    ∃ name expression, s = name ++ ":" ++ expression ∧ ':' ∉ name.toList ∧ ¬Text.Blank name := by
  rw [Option.isSome_iff_exists]
  constructor
  · rintro ⟨p, hp⟩
    obtain ⟨name, hcolon, hname, hs, -⟩ := of_parse? hp
    exact ⟨name, p.expression, hs, hcolon, hname⟩
  · rintro ⟨name, expression, rfl, hcolon, hname⟩
    exact ⟨_, parse?_append hcolon hname⟩

/-! ## Showing -/

theorem Nameable.spells_shown (h : p.Nameable) : Spells p.shown p :=
  ⟨p.condition, h.colonless, rfl, "", "", nofun, nofun, by simp⟩

theorem Nameable.parse?_shown (h : p.Nameable) : parse? p.shown = some p :=
  parse?_eq_some_iff.2 ⟨h, h.spells_shown⟩

/-- **Texts of predicates.**  A text is read exactly if something other than blanks stands
in front of its first colon; the predicate that is read has a proper name and is what the
text spells, and it is read again when it is shown.  Any predicate with a proper name is
read again when it is shown, whatever its expression. -/
theorem shown_reads_back (s : String) (p : Predicate) :
    ((parse? s).isSome = true ↔
      ∃ name expression, s = name ++ ":" ++ expression ∧ ':' ∉ name.toList ∧ ¬Text.Blank name) ∧
    (parse? s = some p → p.Nameable ∧ Spells s p ∧ parse? p.shown = some p) ∧
    (p.Nameable → parse? p.shown = some p) := by
  refine ⟨isSome_parse?_iff, ?_, Nameable.parse?_shown⟩
  intro h
  obtain ⟨hp, hspells⟩ := parse?_eq_some_iff.1 h
  exact ⟨hp, hspells, hp.parse?_shown⟩

/-- Blanks of two kinds around the name, and a colon in the expression. -/
theorem shown_reads_back_padded : parse? "\t json\u3000: a=b:c" = some ⟨"json", " a=b:c"⟩ ∧
    Nameable ⟨"json", " a=b:c"⟩ ∧ parse? "json: a=b:c" = some ⟨"json", " a=b:c"⟩ := by
  have hparse : parse? "\t json\u3000: a=b:c" = some ⟨"json", " a=b:c"⟩ := by decide +kernel
  obtain ⟨hnameable, -, hagain⟩ :=
    (shown_reads_back "\t json\u3000: a=b:c" ⟨"json", " a=b:c"⟩).2.1 hparse
  exact ⟨hparse, hnameable, hagain⟩

end BucketCluster.Predicate
