import BucketCluster.Proofs.Store.Import

/-!
# Where keys come from

A command adds a key to a bucket in two ways only: it stores a document under that
very key, or it reads a backup that has it (`contains_handle`).
-/

namespace BucketCluster.Store

variable {s s' : Store} {b b' : String} {k k' : Key} {c : Command}

/-- The bucket and the keys of a backup that a command reads. -/
def imported? (s : Store) (c : Command) : Option (String × List Key) :=
  match c.operation with
  | .importBackup b source =>
    match s.backups.importEntries source with
    | .ok es => some (b, es.map (·.1))
    | .error _ => none
  | _ => none

/-- The command puts the key into the bucket, by itself or out of a backup. -/
def Brings (s : Store) (c : Command) (b : String) (k : Key) : Prop :=
  (∃ d p, c.operation = .putValue b k d p) ∨ ∃ ks, s.imported? c = some (b, ks) ∧ k ∈ ks

/-! ## Writes -/

theorem contains_store (s : Store) (b b' : String) (k k' : Key) (d : Document) :
    ((s.store b k d).contents b').contains k' = true ↔
      (b' = b ∧ k' = k) ∨ (s.contents b').contains k' = true := by
  rw [store, contents_setContents]
  by_cases hb : b' = b
  · subst hb
    rw [if_pos rfl, SortedMap.contains_insert]
    simp
  · rw [if_neg hb]
    simp [hb]

theorem contains_erase {ds : Documents} (h : (ds.erase k).contains k' = true) :
    ds.contains k' = true := by
  obtain ⟨d, hd⟩ := SortedMap.contains_iff.1 h
  exact SortedMap.contains_iff.2 ⟨d, (List.mem_filter.1 hd).1⟩

/-- An import adds the keys of the backup. -/
theorem contains_importBackup {source : String}
    (h : (((s.importBackup b source).2).contents b').contains k = true) :
    (s.contents b').contains k = true ∨
      ∃ es, s.backups.importEntries source = .ok es ∧ b' = b ∧ k ∈ es.map (·.1) := by
  cases hes : s.backups.importEntries source with
  | error e =>
    rw [importBackup_of_failed b hes] at h
    simp only [contents_create] at h
    exact .inl h
  | ok es =>
    rw [importBackup_of_entries b hes] at h
    simp only [contents_setContents] at h
    split at h
    · next hb =>
      subst hb
      rcases (SortedMap.contains_insertAll ..).1 h with hmem | hold
      · exact .inr ⟨es, rfl, rfl, hmem⟩
      · exact .inl hold
    · exact .inl h

/-! ## Commands -/

theorem contains_perform (h : ((s.perform c.operation).2.contents b).contains k = true) :
    (s.contents b).contains k = true ∨ s.Brings c b k := by
  obtain ⟨i, op⟩ := c
  cases op with
  | putValue b' k' d p =>
    simp only [perform] at h
    rcases (s.create b').tryPut_cases b' k' d p with ⟨e, hput⟩ | hput
    · rw [hput, contents_create] at h
      exact .inl h
    · rw [hput, store_create] at h
      rcases (contains_store ..).1 h with ⟨rfl, rfl⟩ | hold
      · exact .inr (.inl ⟨d, p, rfl⟩)
      · exact .inl hold
  | updateValue b' k' u =>
    simp only [perform] at h
    rcases s.tryUpdate_cases b' k' u with ⟨e, hup⟩ | ⟨d, hup, hk⟩
    · rw [hup] at h
      exact .inl h
    · rw [hup] at h
      rcases (contains_store ..).1 h with ⟨rfl, rfl⟩ | hold
      · exact .inl hk
      · exact .inl hold
  | removeValue b' k' =>
    left
    simp only [perform, contents_remove] at h
    split at h
    · next hb =>
      rw [hb]
      exact contains_erase h
    · exact h
  | removeBucket b' =>
    left
    simp only [perform, contents_drop] at h
    split at h
    · cases h
    · exact h
  | importBackup b' source =>
    rcases contains_importBackup h with hold | ⟨es, hes, rfl, hk⟩
    · exact .inl hold
    · refine .inr (.inr ⟨es.map (·.1), ?_, hk⟩)
      simp only [imported?, hes]
  | _ => exact .inl h

/-- **No key comes from nowhere.**  A key that a store has after it has run a command was
there before, or the command brings it. -/
theorem contains_handle (h : ((s.handle c).2.contents b).contains k = true) :
    (s.contents b).contains k = true ∨ s.Brings c b k := by
  by_cases hc : s.crashes c.operation = true
  · simp only [handle, if_pos hc] at h
    exact .inl h
  · simp only [handle, if_neg hc, apply] at h
    cases hops : s.checkOperators c.operation with
    | error e =>
      rw [hops] at h
      exact .inl h
    | ok _ =>
      rw [hops] at h
      exact contains_perform h

end BucketCluster.Store
