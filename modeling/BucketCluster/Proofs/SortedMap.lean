import BucketCluster.SortedMap
import Mathlib.Algebra.Ring.Nat

/-!
# Lookup in sorted maps

`get?` is the view of a map: two maps with the same view are equal (`ext_get?`),
and every operation is described by what it does to the view.
-/

namespace BucketCluster

variable {κ ν : Type} [Ord κ] [Std.LawfulEqOrd κ]

/-! ## Entry lists -/

namespace Entries

theorem get?_insert [Std.TransOrd κ] (k k' : κ) (v : ν) (es : List (κ × ν)) :
    get? k' (insert k v es) = if compare k' k = .eq then some v else get? k' es := by
  induction es with
  | nil => simp [insert, get?]
  | cons e es ih =>
    obtain ⟨k₀, v₀⟩ := e
    unfold insert
    cases h : compare k k₀ with
    | lt => simp [get?]
    | eq =>
      obtain rfl := Std.LawfulEqCmp.eq_of_compare h
      by_cases hk : compare k' k = .eq
      · simp [get?, hk]
      · simp [get?, hk]
    | gt =>
      simp only [get?, ih]
      by_cases hk₀ : compare k' k₀ = .eq
      · obtain rfl := Std.LawfulEqCmp.eq_of_compare hk₀
        have hne : compare k' k ≠ .eq := by
          intro hk
          rw [Std.OrientedOrd.eq_swap (a := k) (b := k'), hk] at h
          cases h
        simp [hne]
      · simp [hk₀]

theorem Sorted.get?_eq_some {es : List (κ × ν)} (h : Sorted es) {k : κ} {v : ν} :
    get? k es = some v ↔ (k, v) ∈ es := by
  induction es with
  | nil => simp [get?]
  | cons e es ih =>
    obtain ⟨k', v'⟩ := e
    obtain ⟨hlt, hes⟩ := List.pairwise_cons.1 h
    unfold get?
    by_cases hk : compare k k' = .eq
    · obtain rfl := Std.LawfulEqCmp.eq_of_compare hk
      rw [if_pos hk, List.mem_cons]
      constructor
      · intro hv
        exact .inl (by rw [Option.some.inj hv])
      · rintro (hv | hv)
        · rw [(Prod.mk.inj hv).2]
        · have := hlt _ hv
          rw [hk] at this
          cases this
    · rw [if_neg hk, ih hes, List.mem_cons]
      refine ⟨.inr, fun hv => hv.resolve_left ?_⟩
      intro heq
      rw [(Prod.mk.inj heq).1] at hk
      exact hk Std.ReflCmp.compare_self

theorem Sorted.keys_nodup {es : List (κ × ν)} (h : Sorted es) : (es.map (·.1)).Nodup := by
  refine List.pairwise_map.2 (h.imp ?_)
  intro a b hlt heq
  rw [heq, Std.ReflOrd.compare_self] at hlt
  cases hlt

theorem Sorted.nodup {es : List (κ × ν)} (h : Sorted es) : es.Nodup :=
  List.Pairwise.of_map _ (fun _ _ hne heq => hne (by rw [heq])) h.keys_nodup

/-- One value changes, and the sum of all with it. -/
theorem Sorted.sum_insert [Std.TransOrd κ] (f : ν → Nat) {es : List (κ × ν)} (h : Sorted es)
    {k : κ} {v : ν} (hv : get? k es = some v) (w : ν) :
    ((Entries.insert k w es).map fun e => f e.2).sum + f v = (es.map fun e => f e.2).sum + f w := by
  induction es with
  | nil => cases hv
  | cons e es ih =>
    obtain ⟨k', v'⟩ := e
    obtain ⟨hlt, hes⟩ := List.pairwise_cons.1 h
    unfold Entries.insert
    cases hk : compare k k' with
    | eq =>
      simp only [get?, hk, if_pos, Option.some.injEq] at hv
      subst hv
      simp only [List.map_cons, List.sum_cons]
      omega
    | gt =>
      simp only [get?, hk, reduceCtorEq, if_false] at hv
      have hsum := ih hes hv
      simp only [List.map_cons, List.sum_cons]
      omega
    | lt =>
      -- the key would have to stand in front of all others
      simp only [get?, hk, reduceCtorEq, if_false] at hv
      have hgt := hlt _ ((Sorted.get?_eq_some hes).1 hv)
      rw [Std.OrientedCmp.gt_of_lt hgt] at hk
      cases hk

/-- A sorted list is known by its members. -/
theorem Sorted.eq_of_mem_iff [Std.TransOrd κ] {es es' : List (κ × ν)} (h : Sorted es)
    (h' : Sorted es') (hmem : ∀ e, e ∈ es ↔ e ∈ es') : es = es' := by
  have hperm : es.Perm es' := (List.perm_ext_iff_of_nodup h.nodup h'.nodup).2 hmem
  refine hperm.eq_of_pairwise ?_ h h'
  intro a b _ _ hab hba
  rw [Std.OrientedOrd.eq_swap, hba] at hab
  cases hab

omit [Std.LawfulEqOrd κ] in
/-- Of two lists the first one goes first. -/
theorem get?_append (k : κ) (es es' : List (κ × ν)) :
    get? k (es ++ es') = (get? k es).or (get? k es') := by
  induction es with
  | nil => rfl
  | cons e es ih =>
    rw [List.cons_append, get?, get?, ih]
    split <;> rfl

theorem get?_of_notMem {k : κ} {es : List (κ × ν)} (h : k ∉ es.map (·.1)) : get? k es = none := by
  induction es with
  | nil => rfl
  | cons e es ih =>
    rw [List.map_cons, List.mem_cons, not_or] at h
    rw [get?, if_neg fun he => h.1 (Std.LawfulEqCmp.eq_of_compare he), ih h.2]

end Entries

/-! ## Maps -/

namespace SortedMap

@[simp] theorem get?_empty {κ ν : Type} [Ord κ] (k : κ) : (∅ : SortedMap κ ν).get? k = none := rfl

theorem get?_eq_some {m : SortedMap κ ν} {k : κ} {v : ν} : m.get? k = some v ↔ (k, v) ∈ m.entries :=
  m.sorted.get?_eq_some

variable {m n : SortedMap κ ν} {k : κ} {v : ν}

theorem contains_iff : m.contains k = true ↔ ∃ v, (k, v) ∈ m.entries := by
  rw [contains, Option.isSome_iff_exists]
  exact exists_congr fun v => get?_eq_some

theorem contains_iff_mem_keys : m.contains k = true ↔ k ∈ m.entries.map (·.1) := by
  rw [contains_iff, List.mem_map]
  constructor
  · rintro ⟨v, hv⟩
    exact ⟨(k, v), hv, rfl⟩
  · rintro ⟨e, he, rfl⟩
    exact ⟨e.2, he⟩

theorem isEmpty_eq_false_iff : m.isEmpty = false ↔ ∃ k, m.contains k = true := by
  unfold isEmpty
  constructor
  · intro h
    obtain ⟨e, he⟩ := List.exists_mem_of_ne_nil m.entries (by rintro heq; rw [heq] at h; cases h)
    exact ⟨e.1, contains_iff.2 ⟨e.2, he⟩⟩
  · rintro ⟨k, hk⟩
    obtain ⟨v, hv⟩ := contains_iff.1 hk
    cases hes : m.entries with
    | nil => rw [hes] at hv; cases hv
    | cons e es => rfl

theorem get?_filter (m : SortedMap κ ν) (p : κ → ν → Bool) (k : κ) :
    (m.filter p).get? k = (m.get? k).filter (p k) := by
  ext v
  rw [get?_eq_some, Option.filter_eq_some_iff, get?_eq_some]
  exact List.mem_filter

theorem contains_filter (m : SortedMap κ ν) (q : κ → Bool) (k : κ) :
    (m.filter fun k _ => q k).contains k = (m.contains k && q k) := by
  rw [contains, contains, get?_filter]
  cases m.get? k with
  | none => rfl
  | some v => cases q k <;> simp [Option.filter]

@[simp] theorem get?_erase_self (m : SortedMap κ ν) (k : κ) : (m.erase k).get? k = none := by
  rw [erase, get?_filter]
  cases m.get? k with
  | none => rfl
  | some v => simp [Option.filter]

theorem get?_erase_of_ne (m : SortedMap κ ν) {k k' : κ} (h : k' ≠ k) :
    (m.erase k).get? k' = m.get? k' := by
  have hne : compare k k' ≠ .eq := fun he => h (Std.LawfulEqCmp.eq_of_compare he).symm
  rw [erase, get?_filter]
  cases m.get? k' with
  | none => rfl
  | some v => simp [Option.filter, hne]

theorem get?_map {μ : Type} (m : SortedMap κ ν) (f : κ → ν → μ) (k : κ) :
    (m.map f).get? k = (m.get? k).map (f k) := by
  ext w
  rw [get?_eq_some, Option.map_eq_some_iff, map, List.mem_map]
  constructor
  · rintro ⟨e, he, hw⟩
    obtain ⟨rfl, rfl⟩ := Prod.mk.inj hw
    exact ⟨e.2, get?_eq_some.2 he, rfl⟩
  · rintro ⟨v, hv, rfl⟩
    exact ⟨(k, v), get?_eq_some.1 hv, rfl⟩

theorem contains_keySet (m : SortedMap κ ν) (k : κ) : m.keySet.contains k = m.contains k := by
  unfold keySet contains
  rw [get?_map, Option.isSome_map]

/-- Maps of which no two hold the same key hold no key twice. -/
theorem keys_flatMap_nodup {ι : Type} {l : List ι} {maps : ι → SortedMap κ ν}
    (h : l.Pairwise fun i j => ∀ k, (maps i).contains k = true → (maps j).contains k = false) :
    ((l.flatMap fun i => (maps i).entries).map (·.1)).Nodup := by
  refine List.pairwise_map.2
    (List.pairwise_flatMap.2 ⟨fun i _ => ?_, h.imp fun hij a ha b hb hk => ?_⟩)
  · exact List.pairwise_map.1 (maps i).sorted.keys_nodup
  · have hi := contains_iff.2 ⟨a.2, ha⟩
    have hj := contains_iff.2 ⟨b.2, hb⟩
    rw [hk] at hi
    rw [hij _ hi] at hj
    cases hj

variable [Std.TransOrd κ]

/-- Maps with the same view are equal. -/
theorem ext_get? (h : ∀ k, m.get? k = n.get? k) : m = n := by
  refine SortedMap.ext (m.sorted.eq_of_mem_iff n.sorted ?_)
  intro e
  rw [← get?_eq_some (m := m), ← get?_eq_some (m := n), h]

theorem get?_insert (m : SortedMap κ ν) (k k' : κ) (v : ν) :
    (m.insert k v).get? k' = if compare k' k = .eq then some v else m.get? k' :=
  Entries.get?_insert ..

@[simp] theorem get?_insert_self (m : SortedMap κ ν) (k : κ) (v : ν) :
    (m.insert k v).get? k = some v := by
  rw [get?_insert, if_pos Std.ReflCmp.compare_self]

theorem get?_insert_of_ne (m : SortedMap κ ν) {k k' : κ} (v : ν) (h : k' ≠ k) :
    (m.insert k v).get? k' = m.get? k' := by
  rw [get?_insert, if_neg fun he => h (Std.LawfulEqCmp.eq_of_compare he)]

/-- The later value stays. -/
theorem insert_insert (m : SortedMap κ ν) (k : κ) (v w : ν) :
    (m.insert k v).insert k w = m.insert k w := by
  refine ext_get? fun k' => ?_
  rw [get?_insert, get?_insert, get?_insert]
  split <;> rfl

/-- Nothing changes if the value is there already. -/
theorem insert_of_get? (h : m.get? k = some v) : m.insert k v = m := by
  refine ext_get? fun k' => ?_
  by_cases hk : k' = k
  · rw [hk, get?_insert_self, h]
  · rw [get?_insert_of_ne _ _ hk]

theorem erase_of_get? (h : m.get? k = none) : m.erase k = m := by
  refine ext_get? fun k' => ?_
  by_cases hk : k' = k
  · rw [hk, get?_erase_self, h]
  · rw [get?_erase_of_ne _ hk]

omit [Std.LawfulEqOrd κ] in
theorem insertAll_cons (m : SortedMap κ ν) (e : κ × ν) (es : List (κ × ν)) :
    m.insertAll (e :: es) = (m.insert e.1 e.2).insertAll es :=
  rfl

omit [Std.LawfulEqOrd κ] in
/-- What is in the map afterwards has been stored, or was there before. -/
theorem mem_insertAll {es : List (κ × ν)} {e : κ × ν} (h : e ∈ (m.insertAll es).entries) :
    e ∈ es ∨ e ∈ m.entries := by
  induction es generalizing m with
  | nil => exact .inr h
  | cons e' es ih =>
    rcases ih h with h | h
    · exact .inl (List.mem_cons_of_mem _ h)
    · rcases Entries.key_mem_insert h with rfl | h
      · exact .inl List.mem_cons_self
      · exact .inr h

theorem contains_insert (m : SortedMap κ ν) (k k' : κ) (v : ν) :
    (m.insert k v).contains k' = true ↔ k' = k ∨ m.contains k' = true := by
  unfold contains
  by_cases hk : k' = k
  · simp [hk]
  · simp [hk, get?_insert_of_ne]

theorem contains_insertAll (m : SortedMap κ ν) (es : List (κ × ν)) (k : κ) :
    (m.insertAll es).contains k = true ↔ k ∈ es.map (·.1) ∨ m.contains k = true := by
  induction es generalizing m with
  | nil => simp [insertAll]
  | cons e es ih =>
    rw [insertAll_cons, ih, contains_insert, List.map_cons, List.mem_cons]
    grind

theorem sum_values_insert (f : ν → Nat) (h : m.get? k = some v) (w : ν) :
    ((m.insert k w).values.map f).sum + f v = (m.values.map f).sum + f w := by
  unfold values
  rw [List.map_map, List.map_map]
  exact m.sorted.sum_insert f h w

/-- Of entries with different keys all are stored. -/
theorem get?_insertAll {es : List (κ × ν)} (hes : (es.map (·.1)).Nodup) (m : SortedMap κ ν)
    (k : κ) (v : ν) : (m.insertAll es).get? k = some v ↔ (k, v) ∈ es ∨ k ∉ es.map (·.1) ∧
    m.get? k = some v := by
  induction es generalizing m with
  | nil => simp [insertAll]
  | cons e es ih =>
    obtain ⟨k', v'⟩ := e
    obtain ⟨hout, hes⟩ := List.nodup_cons.1 hes
    rw [insertAll_cons, ih hes]
    by_cases hk : k = k'
    · subst hk
      have hmem : (k, v) ∉ es := fun h => hout (List.mem_map.2 ⟨_, h, rfl⟩)
      simp only [get?_insert_self, List.mem_cons, List.map_cons, Prod.mk.injEq, true_and,
        hmem, or_false, false_or, Option.some.injEq]
      simp only [eq_comm, not_true_eq_false, true_or, false_and, or_false, and_iff_right_iff_imp]
      exact fun _ => hout
    · rw [get?_insert_of_ne _ _ hk]
      simp [hk]

/-- Of entries with one key the last one stays. -/
theorem get?_insertAll_list (m : SortedMap κ ν) (es : List (κ × ν)) (k : κ) :
    (m.insertAll es).get? k = (Entries.get? k es.reverse).or (m.get? k) := by
  induction es generalizing m with
  | nil => rfl
  | cons e es ih =>
    rw [insertAll_cons, ih, get?_insert, List.reverse_cons, Entries.get?_append, Option.or_assoc,
      Entries.get?]
    split <;> rfl

theorem get?_insertAll_of_notMem (m : SortedMap κ ν) {es : List (κ × ν)} (h : k ∉ es.map (·.1)) :
    (m.insertAll es).get? k = m.get? k := by
  have hreverse : k ∉ es.reverse.map (·.1) := by rwa [List.map_reverse, List.mem_reverse]
  rw [get?_insertAll_list, Entries.get?_of_notMem hreverse, Option.none_or]

/-- Once is enough. -/
theorem insertAll_insertAll (m : SortedMap κ ν) (es : List (κ × ν)) :
    (m.insertAll es).insertAll es = m.insertAll es := by
  refine ext_get? fun k => ?_
  rw [get?_insertAll_list, get?_insertAll_list, ← Option.or_assoc, Option.or_self]

/-- A map on top of another: its values go first. -/
theorem get?_insertAll_entries (m n : SortedMap κ ν) (k : κ) :
    (m.insertAll n.entries).get? k = (n.get? k).or (m.get? k) := by
  ext v
  rw [get?_insertAll n.sorted.keys_nodup, ← get?_eq_some, ← contains_iff_mem_keys, contains]
  cases n.get? k with
  | none => simp
  | some w => simp

theorem get?_ofList {es : List (κ × ν)} (hes : (es.map (·.1)).Nodup) :
    (ofList es).get? k = some v ↔ (k, v) ∈ es := by
  rw [ofList, get?_insertAll hes]
  simp [empty, get?, Entries.get?]

/-- A map is the map of its entries. -/
@[simp] theorem ofList_entries (m : SortedMap κ ν) : ofList m.entries = m := by
  refine ext_get? fun k => Option.ext ?_
  intro v
  rw [get?_ofList m.sorted.keys_nodup, get?_eq_some]

/-- The map of listed entries does not depend on their order. -/
theorem ofList_perm {es es' : List (κ × ν)} (hes : (es.map (·.1)).Nodup) (hp : es.Perm es') :
    ofList es = ofList es' := by
  refine ext_get? fun k => Option.ext ?_
  intro v
  rw [get?_ofList hes, get?_ofList ((hp.map _).nodup_iff.1 hes), hp.mem_iff]

/-- A map is read off from any set of keys that has all of its own. -/
theorem entries_eq_filterMap {ks : SortedSet κ}
    (h : ∀ k, m.contains k = true → ks.contains k = true) :
    m.entries = ks.keys.filterMap fun k => (m.get? k).map (k, ·) := by
  have hsorted : Entries.Sorted (ks.keys.filterMap fun k => (m.get? k).map (k, ·)) := by
    unfold Entries.Sorted keys
    rw [List.pairwise_filterMap, List.pairwise_map]
    refine ks.sorted.imp fun {a b} hab e he e' he' => ?_
    obtain ⟨v, -, rfl⟩ := Option.map_eq_some_iff.1 he
    obtain ⟨v', -, rfl⟩ := Option.map_eq_some_iff.1 he'
    exact hab
  refine m.sorted.eq_of_mem_iff hsorted fun ⟨k, v⟩ => ?_
  rw [List.mem_filterMap, ← get?_eq_some]
  constructor
  · intro hv
    have hk : m.contains k = true := by
      rw [contains, hv]
      rfl
    exact ⟨k, contains_iff_mem_keys.1 (h k hk), by rw [hv]; rfl⟩
  · rintro ⟨k', -, hk'⟩
    obtain ⟨v', hv', heq⟩ := Option.map_eq_some_iff.1 hk'
    cases heq
    exact hv'

end SortedMap

theorem SortedMap.contains_ofList [Std.TransOrd κ] (es : List (κ × ν)) (k : κ) :
    (ofList es).contains k = true ↔ k ∈ es.map (·.1) := by
  rw [ofList, contains_insertAll]
  simp [empty, contains, get?, Entries.get?]

/-- Sets with the same elements are equal. -/
theorem SortedSet.ext_contains [Std.TransOrd κ] {s t : SortedSet κ}
    (h : ∀ k, s.contains k = true ↔ t.contains k = true) : s = t := by
  refine SortedMap.ext_get? fun k => Option.ext fun u => ?_
  have hsome (o : Option Unit) : o = some u ↔ o.isSome = true := by cases o <;> simp
  rw [hsome, hsome]
  exact h k

/-- A set is the set of its elements. -/
@[simp] theorem SortedSet.ofElements_keys [Std.TransOrd κ] (s : SortedSet κ) :
    ofElements s.keys = s := by
  have hkeys : s.keys.map (·, ()) = s.entries := by
    unfold SortedMap.keys
    rw [List.map_map]
    exact List.map_id _
  rw [ofElements, hkeys, SortedMap.ofList_entries]

end BucketCluster
