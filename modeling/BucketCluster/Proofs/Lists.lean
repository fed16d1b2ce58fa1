import Mathlib.Algebra.Ring.Nat
import Mathlib.Data.List.Forall2
import Mathlib.Data.List.Perm.Basic

/-!
# Lists in which one entry changes

What is found at a place, counted, summed or filtered after one entry has been
replaced or added, what a partial function makes of a list, and two lists that are
related entry by entry.
-/

namespace BucketCluster

variable {α : Type}

/-! ## Places -/

/-- An entry of a list in which one entry was replaced is the new one, or was there before. -/
theorem getElem?_set_or {l : List α} {i j : Nat} {b c : α} (h : (l.set i b)[j]? = some c) :
    l[j]? = some c ∧ i ≠ j ∨ c = b := by
  rw [List.getElem?_set] at h
  split at h
  · split at h
    · exact .inr (Option.some.inj h).symm
    · cases h
  · next hij => exact .inl ⟨h, hij⟩

/-- An entry with the same image does not change the images. -/
theorem map_set_of_eq {β : Type} {f : α → β} {l : List α} {i : Nat} {a b : α} (h : l[i]? = some a)
    (hf : f b = f a) : (l.set i b).map f = l.map f := by
  rw [List.map_set, hf]
  apply List.ext_getElem?
  intro j
  by_cases hij : i = j
  · subst hij
    rw [List.getElem?_map, h]
    exact List.getElem?_set_self (by rw [List.length_map]; exact (List.getElem?_eq_some_iff.1 h).1)
  · rw [List.getElem?_set_ne hij]

/-- What is in a list with one more entry is that entry or was there before. -/
theorem getElem?_concat_or {l : List α} {a b : α} {n : Nat} (h : (l ++ [a])[n]? = some b) :
    l[n]? = some b ∨ n = l.length ∧ b = a := by
  rcases Nat.lt_trichotomy n l.length with hlt | rfl | hgt
  · rw [List.getElem?_append_left hlt] at h
    exact .inl h
  · rw [List.getElem?_concat_length, Option.some.injEq] at h
    exact .inr ⟨rfl, h.symm⟩
  · rw [List.getElem?_eq_none (by rw [List.length_append, List.length_singleton]; omega)] at h
    cases h

/-! ## Counts and sums -/

/-- Replacing one element moves a count by what the two elements contribute. -/
theorem countP_set_add (p : α → Bool) {l : List α} {i : Nat} {a : α} (h : l[i]? = some a) (b : α) :
    (l.set i b).countP p + (if p a then 1 else 0) = l.countP p + if p b then 1 else 0 := by
  obtain ⟨hi, ha⟩ := List.getElem?_eq_some_iff.1 h
  have hle : (if p l[i] then 1 else 0) ≤ l.countP p := List.boole_getElem_le_countP hi
  rw [List.countP_set hi, ← ha]
  omega

/-- Two places that pass a test make the count two at least. -/
theorem two_le_countP {p : α → Bool} {l : List α} {i j : Nat} {a b : α} (hij : i ≠ j)
    (hi : l[i]? = some a) (hj : l[j]? = some b) (ha : p a = true) (hb : p b = true) :
    2 ≤ l.countP p := by
  induction l generalizing i j with
  | nil => simp at hi
  | cons c l ih =>
    rw [List.countP_cons]
    cases i with
    | zero =>
      cases j with
      | zero => exact absurd rfl hij
      | succ j =>
        simp only [List.getElem?_cons_zero, Option.some.injEq] at hi
        have : 0 < l.countP p :=
          List.countP_pos_iff.2 ⟨b, List.mem_of_getElem? (by simpa using hj), hb⟩
        rw [hi, if_pos ha]
        omega
    | succ i =>
      cases j with
      | zero =>
        simp only [List.getElem?_cons_zero, Option.some.injEq] at hj
        have : 0 < l.countP p :=
          List.countP_pos_iff.2 ⟨a, List.mem_of_getElem? (by simpa using hi), ha⟩
        rw [hj, if_pos hb]
        omega
      | succ j =>
        have := ih (i := i) (j := j) (by omega) (by simpa using hi) (by simpa using hj)
        omega

/-- One entry changes, and the sum with it. -/
theorem sum_map_set_add (f : α → Nat) {l : List α} {i : Nat} {a : α} (h : l[i]? = some a) (b : α) :
    ((l.set i b).map f).sum + f a = (l.map f).sum + f b := by
  induction l generalizing i with
  | nil => simp at h
  | cons c l ih =>
    cases i with
    | zero =>
      rw [List.getElem?_cons_zero, Option.some.injEq] at h
      subst h
      simp only [List.set_cons_zero, List.map_cons, List.sum_cons]
      omega
    | succ i =>
      have hrest := ih (by simpa using h)
      simp only [List.set_cons_succ, List.map_cons, List.sum_cons]
      omega

/-! ## Filters -/

/-- An entry that comes to pass a test joins those that do. -/
theorem filter_set_perm {f : α → Bool} {l : List α} {i : Nat} {a b : α} (h : l[i]? = some a)
    (ha : f a = false) (hb : f b = true) : ((l.set i b).filter f).Perm (b :: l.filter f) := by
  induction l generalizing i with
  | nil => simp at h
  | cons c l ih =>
    cases i with
    | zero =>
      rw [List.getElem?_cons_zero, Option.some.injEq] at h
      subst h
      rw [List.set_cons_zero, List.filter_cons_of_pos hb, List.filter_cons_of_neg (by simp [ha])]
    | succ i =>
      have hrest := ih (by simpa using h)
      rw [List.set_cons_succ]
      by_cases hc : f c = true
      · rw [List.filter_cons_of_pos hc, List.filter_cons_of_pos hc]
        exact (hrest.cons c).trans (.swap b c _)
      · rw [List.filter_cons_of_neg hc, List.filter_cons_of_neg hc]
        exact hrest

theorem filter_set_of_neg {f : α → Bool} {l : List α} {i : Nat} {a b : α} (h : l[i]? = some a)
    (ha : f a = false) (hb : f b = false) : (l.set i b).filter f = l.filter f := by
  induction l generalizing i with
  | nil => rfl
  | cons c l ih =>
    cases i with
    | zero =>
      rw [List.getElem?_cons_zero, Option.some.injEq] at h
      subst h
      rw [List.set_cons_zero, List.filter_cons_of_neg (by simp [hb]),
        List.filter_cons_of_neg (by simp [ha])]
    | succ i =>
      rw [List.set_cons_succ, List.filter_cons, List.filter_cons, ih (by simpa using h)]

/-! ## Partial functions -/

/-- What goes well has gone well at each step. -/
theorem of_bind_ok {ε β : Type} {x : Except ε α} {f : α → Except ε β} {b : β}
    (h : x >>= f = .ok b) : ∃ a, x = .ok a ∧ f a = .ok b := by
  cases x with
  | error e => cases h
  | ok a => exact ⟨a, rfl, h⟩

theorem of_map_ok {ε β : Type} {x : Except ε α} {f : α → β} {b : β} (h : x.map f = .ok b) :
    ∃ a, x = .ok a ∧ f a = b := by
  cases x with
  | error e => cases h
  | ok a => exact ⟨a, rfl, Except.ok.inj h⟩

/-- What a partial function makes of a list, one by one. -/
theorem forall₂_of_mapM {β : Type} {f : α → Option β} {xs : List α} {ys : List β}
    (h : xs.mapM f = some ys) : List.Forall₂ (fun x y => f x = some y) xs ys := by
  induction xs generalizing ys with
  | nil =>
    cases h
    exact .nil
  | cons x xs ih =>
    rw [List.mapM_cons] at h
    cases hx : f x with
    | none =>
      rw [hx] at h
      cases h
    | some y =>
      cases hxs : xs.mapM f with
      | none =>
        rw [hx, hxs] at h
        cases h
      | some more =>
        rw [hx, hxs] at h
        cases h
        exact .cons hx (ih hxs)

/-- What is a list of images in another order is the list of images of a list in another order. -/
theorem exists_map_of_perm {β : Type} {f : α → β} {ys : List β} {xs : List α}
    (hp : ys.Perm (xs.map f)) : ∃ xs' : List α, ys = xs'.map f ∧ xs'.Perm xs := by
  have hcomp := congrFun₂ (List.eq_map_comp_perm f) ys xs
  exact hcomp.mpr hp

/-! ## Two lists, entry by entry -/

theorem forall₂_getElem? {β : Type} {R : α → β → Prop} {l : List α} {m : List β}
    (h : List.Forall₂ R l m) {i : Nat} {a : α} (hi : l[i]? = some a) :
    ∃ b, m[i]? = some b ∧ R a b := by
  induction h generalizing i with
  | nil => cases hi
  | cons hab _ ih =>
    cases i with
    | zero =>
      cases hi
      exact ⟨_, rfl, hab⟩
    | succ i => exact ih hi

theorem forall₂_set {β : Type} {R : α → β → Prop} {l : List α} {m : List β}
    (h : List.Forall₂ R l m) {a : α} {b : β} (hab : R a b) (i : Nat) :
    List.Forall₂ R (l.set i a) (m.set i b) := by
  induction h generalizing i with
  | nil => exact .nil
  | cons hab' hlm ih =>
    cases i with
    | zero => exact .cons hab hlm
    | succ i => exact .cons hab' (ih i)

end BucketCluster
