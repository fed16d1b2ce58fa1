import BucketCluster.Proofs.Lists
import BucketCluster.Proofs.SortedMap
import BucketCluster.Store.Apply

/-!
# What commands do to a store

A bucket that is missing and an empty one cannot be told apart by commands that
name their operators right: each of them is described here by the contents of the
buckets alone.
-/

namespace BucketCluster.Store

variable {s : Store} {b : String} {k : Key} {p : Option Predicate} {f : Filter}

/-! ## Contents -/

theorem contents_setContents (s : Store) (b b' : String) (ds : Documents) :
    (s.setContents b ds).contents b' = if b' = b then ds else s.contents b' := by
  unfold contents setContents
  by_cases h : b' = b
  · subst h
    rw [if_pos rfl, SortedMap.get?_insert_self]
    rfl
  · rw [if_neg h, SortedMap.get?_insert_of_ne _ _ h]

theorem contents_setContents_self (s : Store) (b : String) (ds : Documents) :
    (s.setContents b ds).contents b = ds := by
  rw [contents_setContents, if_pos rfl]

theorem setContents_setContents (s : Store) (b : String) (ds ds' : Documents) :
    (s.setContents b ds).setContents b ds' = s.setContents b ds' := by
  unfold setContents
  rw [SortedMap.insert_insert]

/-- A new bucket is empty. -/
theorem contents_create (s : Store) (b b' : String) : (s.create b).contents b' = s.contents b' := by
  rw [create, contents_setContents]
  split
  · next hb => rw [hb]
  · rfl

/-- A bucket that exists is not created again. -/
theorem create_of_get? {s : Store} {b : String} {ds : Documents} (h : s.buckets.get? b = some ds) :
    s.create b = s := by
  have hds : s.contents b = ds := by rw [contents, h]; rfl
  rw [create, hds, setContents, SortedMap.insert_of_get? h]

theorem contents_drop (s : Store) (b b' : String) :
    (s.drop b).contents b' = if b' = b then ∅ else s.contents b' := by
  unfold contents drop
  by_cases h : b' = b
  · subst h
    rw [if_pos rfl, SortedMap.get?_erase_self]
    rfl
  · rw [if_neg h, SortedMap.get?_erase_of_ne _ h]

theorem contents_remove (s : Store) (b b' : String) (k : Key) :
    (s.remove b k).contents b' = if b' = b then (s.contents b).erase k else s.contents b' := by
  unfold remove
  cases h : s.buckets.get? b with
  | some ds =>
    have hds : s.contents b = ds := by rw [contents, h]; rfl
    simp only [contents_setContents, hds]
  | none =>
    have hds : s.contents b = ∅ := by rw [contents, h]; rfl
    by_cases hb : b' = b
    · subst hb
      rw [if_pos rfl, hds]
      rfl
    · rw [if_neg hb]

theorem operators_remove (s : Store) (b : String) (k : Key) :
    (s.remove b k).operators = s.operators := by
  unfold remove
  split <;> rfl

/-! ## Commands -/

/-- Stores a document in a bucket. -/
def store (s : Store) (b : String) (k : Key) (d : Document) : Store :=
    s.setContents b ((s.contents b).insert k d)

/-- A bucket is created by what is stored in it. -/
theorem store_create (s : Store) (b : String) (k : Key) (d : Document) :
    (s.create b).store b k d = s.store b k d := by
  rw [store, contents_create, create, setContents_setContents]
  rfl

theorem get?_store_self (s : Store) (b : String) (k : Key) (d : Document) :
    ((s.store b k d).contents b).get? k = some d := by
  rw [store, contents_setContents_self, SortedMap.get?_insert_self]

/-- The later document stays. -/
theorem store_store (s : Store) (b : String) (k : Key) (d d' : Document) :
    (s.store b k d).store b k d' = s.store b k d' := by
  unfold store
  rw [contents_setContents_self, setContents_setContents, SortedMap.insert_insert]

/-- Nothing changes if the document is there already. -/
theorem store_of_get? {d : Document} (h : (s.contents b).get? k = some d) : s.store b k d = s := by
  rw [store, SortedMap.insert_of_get? h]
  unfold contents at h
  cases hb : s.buckets.get? b with
  | none =>
    rw [hb] at h
    cases h
  | some ds => exact create_of_get? hb

/-- What the check finds is reported, and nothing else is done. -/
theorem apply_of_check {c : Command} {e : StoreError}
    (h : s.checkOperators c.operation = .error e) : s.apply c = (.error e, s) := by
  rw [apply, h]

theorem apply_of_filter {c : Command} {e : StoreError}
    (h : s.operators.filter c.operation.predicate? = .error e) : s.apply c = (.error e, s) := by
  apply apply_of_check
  unfold checkOperators
  rw [h]
  rfl

theorem apply_getValue (id : String) (hf : s.operators.filter p = .ok f) :
    s.apply ⟨id, .getValue b k p⟩ =
      (.ok (.value (((s.contents b).get? k).filter (f.keeps k))), s) := by
  simp only [apply, checkOperators, Operation.predicate?, hf, perform, value, reading]
  rfl

theorem apply_getValues (id : String) (ks : KeySet) (hf : s.operators.filter p = .ok f) :
    s.apply ⟨id, .getValues b ks p⟩ =
      (.ok (.values ((s.contents b).filter fun k d => ks.contains k && f.keeps k d)), s) := by
  simp only [apply, checkOperators, Operation.predicate?, hf, perform, valuesOf, reading]
  rfl

theorem apply_getKeys (id : String) :
    s.apply ⟨id, .getKeys b⟩ = (.ok (.keys (s.contents b).keySet), s) :=
  rfl

theorem apply_predicateQuery (id : String) {p : Predicate}
    (hf : s.operators.filter (some p) = .ok f) :
    s.apply ⟨id, .predicateQuery b p⟩ = (.ok (.values ((s.contents b).filter f.keeps)), s) := by
  simp only [apply, checkOperators, Operation.predicate?, hf, perform, query, reading]
  rfl

theorem apply_rangeQuery (id : String) {range : KeyRange} {order : Comparator}
    (horder : s.operators.comparator range.comparatorName = .ok order)
    (hf : s.operators.filter p = .ok f) :
    s.apply ⟨id, .rangeQuery b range p⟩ =
      (.ok (.entries (range.select order f (s.contents b).entries)), s) := by
  simp only [apply, checkOperators, Operation.predicate?, hf, horder, perform, Store.range, reading]
  rfl

theorem tryPut_eq (d : Document) (hf : s.operators.filter p = .ok f) :
    s.tryPut b k d p =
      if (((s.contents b).get? k).map (f.keeps k)).getD true then (.ok (), s.store b k d)
      else (.error (.conditionFailed b k.shown), s) := by
  unfold tryPut
  rw [hf]
  rfl

/-- A put writes when nothing can fail any more. -/
theorem tryPut_cases (s : Store) (b : String) (k : Key) (d : Document) (p : Option Predicate) :
    (∃ e, s.tryPut b k d p = (.error e, s)) ∨ s.tryPut b k d p = (.ok (), s.store b k d) := by
  cases hf : s.operators.filter p with
  | error e => exact .inl ⟨e, by rw [tryPut, hf]⟩
  | ok f =>
    rw [tryPut_eq d hf]
    split
    · exact .inr rfl
    · exact .inl ⟨_, rfl⟩

theorem apply_putValue (id : String) (d : Document) (hf : s.operators.filter p = .ok f) :
    s.apply ⟨id, .putValue b k d p⟩ =
      if (((s.contents b).get? k).map (f.keeps k)).getD true then (.ok .done, s.store b k d)
      else (.error (.conditionFailed b k.shown), s) := by
  have hput : (s.create b).tryPut b k d p = _ := tryPut_eq d (s := s.create b) hf
  simp only [apply, checkOperators, Operation.predicate?, hf, perform, hput, contents_create,
    store_create]
  by_cases h : (((s.contents b).get? k).map (f.keeps k)).getD true = true
  · rw [if_pos h, if_pos h]
    rfl
  · rw [if_neg h, if_neg h]
    -- the key is there, and so is the bucket
    cases hb : s.buckets.get? b with
    | some ds =>
      rw [create_of_get? hb]
      rfl
    | none =>
      have hds : s.contents b = ∅ := by rw [contents, hb]; rfl
      rw [hds, SortedMap.get?_empty] at h
      exact absurd rfl h

theorem apply_removeValue (id : String) :
    s.apply ⟨id, .removeValue b k⟩ = (.ok .done, s.remove b k) :=
  rfl

theorem apply_removeBucket (id : String) : s.apply ⟨id, .removeBucket b⟩ = (.ok .done, s.drop b) :=
  rfl

theorem apply_importBackup (s : Store) (id b source : String) :
    s.apply ⟨id, .importBackup b source⟩ =
    ((s.importBackup b source).1.map fun n => .count (UInt64.ofNat n),
      (s.importBackup b source).2) := rfl

theorem apply_exportBackup (s : Store) (id b destination : String) :
    s.apply ⟨id, .exportBackup b destination⟩ =
    ((s.backups.exportEntries destination (s.contents b).entries).1.map fun n =>
      .count (UInt64.ofNat n),
      { s with backups := (s.backups.exportEntries destination (s.contents b).entries).2 }) := rfl

theorem tryUpdate_eq {u : Update} {g : UpdateFunction}
    (hg : s.operators.function u.function = .ok g) : s.tryUpdate b k u =
      match (s.contents b).get? k with
      | none => (.error (.keyNotFound b k.shown), s)
      | some d =>
        match g.updated k d u with
        | .ok d => (.ok d, s.store b k d)
        | .error e => (.error e, s) := by
  unfold tryUpdate
  cases hb : s.buckets.get? b with
  | none =>
    have hds : s.contents b = ∅ := by rw [contents, hb]; rfl
    rw [hds, SortedMap.get?_empty]
  | some ds =>
    have hds : s.contents b = ds := by rw [contents, hb]; rfl
    rw [hds]
    simp only [hg]
    cases ds.get? k with
    | none => rfl
    | some d =>
      simp only
      cases g.updated k d u with
      | error e => rfl
      | ok d' => simp only [store, hds]

theorem tryUpdate_of_unknown {u : Update} {e : StoreError}
    (hg : s.operators.function u.function = .error e) :
    ∃ e', s.tryUpdate b k u = (.error e', s) := by
  unfold tryUpdate
  cases s.buckets.get? b with
  | none => exact ⟨_, rfl⟩
  | some ds =>
    simp only [hg]
    exact ⟨e, rfl⟩

/-- An update writes when nothing can fail any more, and only where it has found a document. -/
theorem tryUpdate_cases (s : Store) (b : String) (k : Key) (u : Update) :
    (∃ e, s.tryUpdate b k u = (.error e, s)) ∨
      ∃ d, s.tryUpdate b k u = (.ok d, s.store b k d) ∧ (s.contents b).contains k = true := by
  cases hg : s.operators.function u.function with
  | error e => exact .inl (tryUpdate_of_unknown hg)
  | ok g =>
    rw [tryUpdate_eq hg]
    cases hd : (s.contents b).get? k with
    | none => exact .inl ⟨_, rfl⟩
    | some d =>
      simp only
      cases g.updated k d u with
      | error e => exact .inl ⟨e, rfl⟩
      | ok d' => exact .inr ⟨d', rfl, by rw [SortedMap.contains, hd]; rfl⟩

theorem apply_updateValue (id : String) {u : Update} {g : UpdateFunction}
    (hg : s.operators.function u.function = .ok g) :
    s.apply ⟨id, .updateValue b k u⟩ =
      match (s.contents b).get? k with
      | none => (.error (.keyNotFound b k.shown), s)
      | some d =>
        match g.updated k d u with
        | .ok d => (.ok (.value (some d)), s.store b k d)
        | .error e => (.error e, s) := by
  have happly : s.apply ⟨id, .updateValue b k u⟩ = s.perform (.updateValue b k u) := rfl
  rw [happly, perform, tryUpdate_eq hg]
  cases (s.contents b).get? k with
  | none => rfl
  | some d =>
    simp only
    cases g.updated k d u <;> rfl

theorem apply_updateValue_of_unknown (id : String) {u : Update} {e : StoreError}
    (hg : s.operators.function u.function = .error e) :
    ∃ e', s.apply ⟨id, .updateValue b k u⟩ = (.error e', s) := by
  obtain ⟨e', h⟩ := tryUpdate_of_unknown (b := b) (k := k) hg
  have happly : s.apply ⟨id, .updateValue b k u⟩ = s.perform (.updateValue b k u) := rfl
  rw [happly, perform, h]
  exact ⟨e', rfl⟩

/-- An update that succeeds has found a document, and stores what the function has made of it. -/
theorem updated_of_apply {id : String} {u : Update} {a : Answer}
    (h : (s.apply ⟨id, .updateValue b k u⟩).1 = .ok a) :
    ∃ g d d', s.operators.function u.function = .ok g ∧ (s.contents b).get? k = some d ∧
      g.updated k d u = .ok d' ∧ (s.apply ⟨id, .updateValue b k u⟩).2 = s.store b k d' := by
  cases hg : s.operators.function u.function with
  | error e =>
    obtain ⟨e', herror⟩ := apply_updateValue_of_unknown (b := b) (k := k) id hg
    rw [herror] at h
    cases h
  | ok g =>
    rw [apply_updateValue id hg] at h ⊢
    cases hd : (s.contents b).get? k with
    | none =>
      rw [hd] at h
      cases h
    | some d =>
      rw [hd] at h
      simp only at h ⊢
      cases hupdated : g.updated k d u with
      | error e =>
        rw [hupdated] at h
        cases h
      | ok d' => exact ⟨g, d, d', rfl, rfl, hupdated, rfl⟩

theorem function_eq_ok {name : String} {g : UpdateFunction} :
    s.operators.function name = .ok g ↔ s.operators.functions.get? name = some g := by
  unfold Operators.function
  cases s.operators.functions.get? name <;> simp

/-- An update stores, and answers, what its function has made of the document in time. -/
theorem apply_of_run (id : String) {u : Update} {g : UpdateFunction} {d d' : Document}
    (hg : s.operators.functions.get? u.function = some g) (hd : (s.contents b).get? k = some d)
    (hrun : g.run k d u.parameters (g.deadline k d u) = .ok d')
    (hintime : g.deadline k d u = .never) :
    s.apply ⟨id, .updateValue b k u⟩ = (.ok (.value (some d')), s.store b k d') := by
  have hupdated : g.updated k d u = .ok d' := by
    rw [UpdateFunction.updated, hrun, hintime]
    rfl
  rw [apply_updateValue id (function_eq_ok.2 hg), hd]
  simp only [hupdated]

/-- Nothing else makes an update succeed. -/
theorem ran_of_apply {id : String} {u : Update} {g : UpdateFunction} {d : Document} {a : Answer}
    {s' : Store} (hg : s.operators.functions.get? u.function = some g)
    (hd : (s.contents b).get? k = some d)
    (h : s.apply ⟨id, .updateValue b k u⟩ = (.ok a, s')) :
    ∃ d', g.run k d u.parameters (g.deadline k d u) = .ok d' ∧ a = .value (some d') ∧
      s' = s.store b k d' := by
  rw [apply_updateValue id (function_eq_ok.2 hg), hd] at h
  simp only at h
  cases hupdated : g.updated k d u with
  | error e =>
    rw [hupdated] at h
    cases h
  | ok d' =>
    rw [hupdated] at h
    obtain ⟨ha, hs'⟩ := Prod.mk.inj h
    obtain ⟨d₁, hrun, hcheck⟩ := of_bind_ok hupdated
    obtain ⟨_, -, heq⟩ := of_bind_ok hcheck
    cases heq
    exact ⟨d', hrun, (Except.ok.inj ha).symm, hs'.symm⟩

/-- An update whose function fails changes nothing. -/
theorem apply_of_run_error (id : String) {u : Update} {g : UpdateFunction} {d : Document}
    {e : StoreError} (hg : s.operators.functions.get? u.function = some g)
    (hd : (s.contents b).get? k = some d)
    (hrun : g.run k d u.parameters (g.deadline k d u) = .error e) :
    s.apply ⟨id, .updateValue b k u⟩ = (.error e, s) := by
  have hupdated : g.updated k d u = .error e := by
    rw [UpdateFunction.updated, hrun]
    rfl
  rw [apply_updateValue id (function_eq_ok.2 hg), hd]
  simp only [hupdated]

/-! ## Operators -/

theorem operators_tryPut (b : String) (k : Key) (d : Document) (p : Option Predicate) (s : Store) :
    (s.tryPut b k d p).2.operators = s.operators := by
  rcases s.tryPut_cases b k d p with ⟨e, h⟩ | h
  · rw [h]
  · rw [h]
    rfl

theorem operators_tryUpdate (b : String) (k : Key) (u : Update) (s : Store) :
    (s.tryUpdate b k u).2.operators = s.operators := by
  rcases s.tryUpdate_cases b k u with ⟨e, h⟩ | ⟨d, h, -⟩
  · rw [h]
  · rw [h]
    rfl

theorem operators_importBackup (b source : String) (s : Store) :
    (s.importBackup b source).2.operators = s.operators := by
  unfold importBackup
  simp only
  split <;> rfl

/-- No command changes the operators of a store. -/
theorem operators_apply (s : Store) (c : Command) : (s.apply c).2.operators = s.operators := by
  unfold apply
  split
  · rfl
  · cases c.operation with
    | putValue b k d p => exact operators_tryPut b k d p (s.create b)
    | updateValue b k u => exact operators_tryUpdate b k u s
    | removeValue b k => exact operators_remove s b k
    | importBackup b source => exact operators_importBackup b source s
    | _ => rfl

/-! ## Commands that come one after the other -/

/-- The answers of a store to commands that come one after the other, and the store after them. -/
def applyAll (s : Store) : List Command → List (Except StoreError Answer) × Store
  | [] => ([], s)
  | c :: cs =>
    let (a, s) := s.apply c
    let (as, s) := s.applyAll cs
    (a :: as, s)

theorem applyAll_concat (s : Store) (cs : List Command) (c : Command) :
    s.applyAll (cs ++ [c]) =
      ((s.applyAll cs).1 ++ [((s.applyAll cs).2.apply c).1], ((s.applyAll cs).2.apply c).2) := by
  induction cs generalizing s with
  | nil => rfl
  | cons c' cs ih =>
    rw [List.cons_append]
    simp only [applyAll, ih]
    rfl

theorem operators_applyAll (s : Store) (cs : List Command) :
    (s.applyAll cs).2.operators = s.operators := by
  induction cs generalizing s with
  | nil => rfl
  | cons c cs ih => exact (ih _).trans (s.operators_apply c)

end BucketCluster.Store
