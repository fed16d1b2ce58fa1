import BucketCluster.Text.Blank
import Mathlib.Data.List.DropRight

/-!
# Trimming and cutting

Trimming takes the blanks away that stand around a text, and nothing else (`trim_eq_iff`):
it leaves nothing exactly when every character is blank, and a text as it is that neither
starts nor ends with a blank.  A text is cut where it was put together, unless the
separator stands in front of that (`cut_eq_some_iff`).
-/

namespace BucketCluster.Text

/-! ## Trimming -/

theorem trimChars_eq (cs : List Char) : trimChars cs = (cs.dropWhile isBlank).rdropWhile isBlank :=
  rfl

theorem trimChars_eq_nil {cs : List Char} : trimChars cs = [] ↔ ∀ c ∈ cs, isBlank c = true := by
  rw [trimChars_eq, List.rdropWhile_eq_nil_iff]
  constructor
  · intro h c hc
    rw [← List.takeWhile_append_dropWhile (p := isBlank) (l := cs), List.mem_append] at hc
    exact hc.elim List.mem_takeWhile_imp (h c)
  · intro h c hc
    exact h c ((List.dropWhile_sublist _).subset hc)

theorem isEmpty_trim {s : String} : (trim s).isEmpty = true ↔ ∀ c ∈ s.toList, isBlank c = true := by
  rw [← trimChars_eq_nil, trim]
  simp

/-- The text neither starts nor ends with a blank. -/
structure Trimmed (s : String) : Prop where
  first : ∀ c ∈ s.toList.head?, isBlank c = false
  last : ∀ c ∈ s.toList.getLast?, isBlank c = false

/-- Looks at the two ends. -/
instance (s : String) : Decidable (Trimmed s) :=
  decidable_of_iff ((s.toList.head?.all (!isBlank ·)) = true ∧
    (s.toList.getLast?.all (!isBlank ·)) = true) <| by
    simp only [Option.all_eq_true, Bool.not_eq_true']
    exact ⟨fun h => ⟨h.1, h.2⟩, fun h => ⟨h.first, h.last⟩⟩

/-- There are only blanks in the text. -/
def Blank (s : String) : Prop := ∀ c ∈ s.toList, isBlank c = true

/-- The text is another one with blanks around it. -/
def Pads (s t : String) : Prop := ∃ left right, Blank left ∧ Blank right ∧ s = left ++ t ++ right

theorem trimmed_trim (s : String) : Trimmed (trim s) := by
  have hchars : (trim s).toList = (s.toList.dropWhile isBlank).rdropWhile isBlank :=
    String.toList_ofList
  constructor
  · intro c hc
    rw [hchars] at hc
    -- what is left after the end has been trimmed starts as it did before
    obtain ⟨cs, hcs⟩ := List.rdropWhile_prefix isBlank (l := s.toList.dropWhile isBlank)
    have hfirst : (s.toList.dropWhile isBlank).head? = some c := by
      rw [← hcs, List.head?_append, hc]
      rfl
    have hnot := List.head?_dropWhile_not isBlank s.toList
    rw [hfirst] at hnot
    simpa using hnot
  · intro c hc
    rw [hchars] at hc
    obtain ⟨hne, rfl⟩ := List.mem_getLast?_eq_getLast hc
    simpa using List.rdropWhile_last_not isBlank _ hne

theorem pads_trim (s : String) : Pads s (trim s) := by
  refine ⟨String.ofList (s.toList.takeWhile isBlank),
    String.ofList ((s.toList.dropWhile isBlank).rtakeWhile isBlank), ?_, ?_, ?_⟩
  · intro c hc
    rw [String.toList_ofList] at hc
    exact List.mem_takeWhile_imp hc
  · intro c hc
    rw [String.toList_ofList] at hc
    exact List.mem_rtakeWhile_imp hc
  · rw [trim, trimChars_eq, ← String.ofList_append, ← String.ofList_append, List.append_assoc,
      List.rdropWhile_append_rtakeWhile, List.takeWhile_append_dropWhile, String.ofList_toList]

theorem trim_append {left s right : String} (hleft : Blank left) (hright : Blank right)
    (hs : Trimmed s) : trim (left ++ s ++ right) = s := by
  suffices hchars : trimChars (left ++ s ++ right).toList = s.toList by
    rw [trim, hchars, String.ofList_toList]
  rw [String.toList_append, String.toList_append]
  cases hcs : s.toList with
  | nil =>
    rw [List.append_nil, trimChars_eq_nil]
    intro c hc
    exact (List.mem_append.1 hc).elim (hleft c) (hright c)
  | cons c cs =>
    have hfirst : ¬isBlank c = true := by
      rw [hs.first c (by rw [hcs]; rfl)]
      decide
    have hlast : (c :: cs).rdropWhile isBlank = c :: cs := by
      refine List.rdropWhile_eq_self_iff.2 fun hne => ?_
      rw [hs.last _ (by rw [hcs]; exact List.getLast?_eq_some_getLast hne)]
      decide
    have hdrop : (left.toList ++ (c :: cs) ++ right.toList).dropWhile isBlank =
        c :: cs ++ right.toList := by
      rw [List.append_assoc, List.dropWhile_append_of_pos hleft, List.cons_append,
        List.dropWhile_cons_of_neg hfirst]
    have hblank : ∀ c ∈ right.toList.reverse, isBlank c = true :=
      fun c hc => hright c (List.mem_reverse.1 hc)
    rw [trimChars_eq, hdrop, List.rdropWhile, List.reverse_append,
      List.dropWhile_append_of_pos hblank]
    exact hlast

/-- **What trimming does.**  The blanks around a text go, and it is
left without a blank at either end. -/
theorem trim_eq_iff {s t : String} : trim s = t ↔ Trimmed t ∧ Pads s t := by
  constructor
  · rintro rfl
    exact ⟨trimmed_trim s, pads_trim s⟩
  · rintro ⟨ht, left, right, hleft, hright, rfl⟩
    exact trim_append hleft hright ht

theorem Trimmed.trim_eq {s : String} (h : Trimmed s) : trim s = s :=
  trim_eq_iff.2 ⟨h, "", "", nofun, nofun, by simp⟩

/-! ## Cutting -/

theorem cutChars_append {sep : Char} {cs : List Char} (h : sep ∉ cs) (cs' : List Char) :
    cutChars sep (cs ++ sep :: cs') = some (cs, cs') := by
  induction cs with
  | nil => simp [cutChars]
  | cons c cs ih =>
    rw [List.mem_cons, not_or] at h
    rw [List.cons_append, cutChars, if_neg (Ne.symm h.1), ih h.2]
    rfl

theorem of_cutChars {sep : Char} {cs before after : List Char}
    (h : cutChars sep cs = some (before, after)) : sep ∉ before ∧ cs = before ++ sep :: after := by
  induction cs generalizing before with
  | nil => cases h
  | cons c cs ih =>
    unfold cutChars at h
    split at h
    case isTrue hc =>
      cases h
      exact ⟨List.not_mem_nil, by rw [hc, List.nil_append]⟩
    case isFalse hc =>
      obtain ⟨⟨front, rest⟩, hcut, heq⟩ := Option.map_eq_some_iff.1 h
      cases heq
      obtain ⟨hout, rfl⟩ := ih hcut
      exact ⟨fun hmem => (List.mem_cons.1 hmem).elim (Ne.symm hc) hout, rfl⟩

theorem cut_append {sep : Char} {s : String} (h : sep ∉ s.toList) (s' : String) :
    cut sep (s ++ String.singleton sep ++ s') = some (s, s') := by
  have hchars : (s ++ String.singleton sep ++ s').toList = s.toList ++ sep :: s'.toList := by simp
  rw [cut, hchars, cutChars_append h]
  simp

/-- **Where a text is cut.**  The separator behind the first part is the first one of all. -/
theorem cut_eq_some_iff {sep : Char} {s before after : String} :
    cut sep s = some (before, after) ↔ sep ∉ before.toList ∧
    s = before ++ String.singleton sep ++ after := by
  constructor
  · intro h
    obtain ⟨⟨cs, cs'⟩, hcut, heq⟩ := Option.map_eq_some_iff.1 h
    cases heq
    obtain ⟨hout, hs⟩ := of_cutChars hcut
    refine ⟨by rwa [String.toList_ofList], String.toList_inj.1 ?_⟩
    simpa using hs
  · rintro ⟨hout, rfl⟩
    exact cut_append hout after

end BucketCluster.Text
