import BucketCluster.Proofs.Network.Sequential
import BucketCluster.Proofs.Store.Merges
import BucketCluster.Proofs.Store.Redelivery

/-!
# Concurrent merges

A node with several workers carries out merges into one document in some order, which nobody
controls.  Nothing is lost (`merges_compose`): whatever the order, the document has all of their
fields in the end, with the bytes that one merge of all of them would write, as long as no two
merges set the same field.
-/

namespace BucketCluster.Store

variable {s : Store} {b : String} {k : Key} {d : Document} {m : SortedMap String Json}

/-- Between the one object and the other all parameters have been set, and nothing else. -/
structure SetsAll (pss : List Parameters) (before after : List (String × Json)) : Prop where
  set : ∀ ps ∈ pss, ∀ name text, ps.get? name = some text →
    Json.member? name after = some (.string text)
  kept : ∀ name, (∀ ps ∈ pss, ps.contains name = false) →
    Json.member? name after = Json.member? name before

theorem setsAll_joined {pss : List Parameters} (h : pss.Pairwise Parameters.Apart)
    (m : SortedMap String Json) :
    SetsAll pss m.entries (m.insertAll (Operators.members (Parameters.joined pss))).entries where
  set := by
    intro ps hps name text htext
    have hmember := Operators.get?_insertAll_members m (Parameters.joined pss) name
    rw [(Parameters.get?_joined h).2 ⟨ps, hps, htext⟩] at hmember
    exact hmember
  kept := by
    intro name hname
    have hmember := Operators.get?_insertAll_members m (Parameters.joined pss) name
    rw [Parameters.get?_joined_eq_none hname] at hmember
    exact hmember

/-! ## Merges on a node -/

theorem Mergeable.crashes (h : s.Mergeable b k d m) (p : Patch) :
    s.crashes (p.command b k).operation = false := by
  obtain ⟨g, hg, -, hcalm, -⟩ := Operators.builtin_merge
  have hget : s.operators.functions.get? p.update.function = some g := h.builtin.trans hg
  show s.updateCrashes b k p.update = false
  rw [updateCrashes, h.stored, hget]
  exact hcalm _ _ _

/-- Serving merges is applying them. -/
theorem Mergeable.serveAll (h : s.Mergeable b k d m) (ps : List Patch) :
    s.serveAll (ps.map (·.command b k)) =
      ((s.applyAll (ps.map (·.command b k))).1.map (·.mapError .store),
        (s.applyAll (ps.map (·.command b k))).2) := by
  induction ps generalizing s d m with
  | nil => rfl
  | cons p ps ih =>
    simp only [List.map_cons, Store.serveAll, applyAll, handle_of_calm (h.crashes p), h.apply p,
      ih (h.merged p.parameters)]

/-- The merges on which work has ended have all succeeded, and the store is what they make
of it in the order in which it ended. -/
theorem merges_of_execution (h : s.Mergeable b k d m) {workers : Nat}
    {log : List (Ticket Command × Outcome)} {x : Processor}
    (hx : Executor.Execution handler workers s log x) {ps : List Patch}
    (hlog : log.map (·.1.job) = ps.map (·.command b k)) :
    x.store = s.store b k (patched d m (ps.map (·.parameters))) ∧
      ∀ e ∈ log, ∃ d', e.2.reply = .ok (.value (some d')) := by
  obtain ⟨hstore, hanswers⟩ := applyAll_patches h ps
  have hserved := serveAll_of_replays hx.replays
  rw [hlog, h.serveAll ps, Prod.mk.injEq] at hserved
  refine ⟨hserved.2.symm.trans hstore, fun e he => ?_⟩
  have hreply : e.2.reply ∈ log.map (·.2.reply) := List.mem_map_of_mem he
  rw [← hserved.1] at hreply
  obtain ⟨a, ha, heq⟩ := List.mem_map.1 hreply
  obtain ⟨d', rfl⟩ := hanswers a ha
  exact ⟨d', heq.symm⟩

/-! ## Merges compose -/

/-- One merge after another is one merge of both. -/
theorem Mergeable.apply_apply (h : s.Mergeable b k d m) {p q r : Patch}
    (hr : r.parameters = p.parameters.insertAll q.parameters.entries) :
    (s.apply (p.command b k)).2.apply (q.command b k) = s.apply (r.command b k) := by
  rw [h.apply p, h.apply r, (h.merged p.parameters).apply q, Operators.merged_merged,
    store_store, hr]

/-- **Merges compose, and concurrent ones lose nothing.**  A merge into what is no object
fails and changes nothing.  Where an object is stored whose numbers are all integers, one
merge after another stores and answers what one merge of both does, and a merge made again
changes nothing.  Merges that set different fields end with the same bytes in any order,
also on a node that works on several of them at a time: all their fields are set, and the
others are kept. -/
theorem merges_compose (hmerge : s.HasBuiltin "merge") (hd : (s.contents b).get? k = some d) :
    ((∀ ms, d.toJson ≠ .ok (.object ms)) → ∃ reason, ∀ id milliseconds ps,
      s.apply ⟨id, .updateValue b k ⟨"merge", milliseconds, ps⟩⟩ =
        (.error (.malformed reason), s)) ∧
    ∀ ms, d.toJson = .ok (.object ms) → (Json.object ms).Whole →
      (∀ p q r : Patch, r.parameters = p.parameters.insertAll q.parameters.entries →
        (s.apply (p.command b k)).2.apply (q.command b k) = s.apply (r.command b k) ∧
          ∃ d', s.apply (r.command b k) = (.ok (.value (some d')), s.store b k d')) ∧
      (∀ p q : Patch, q.parameters = p.parameters →
        (s.apply (p.command b k)).2.apply (q.command b k) = s.apply (p.command b k)) ∧
      ∀ ps : List Patch, (ps.map (·.parameters)).Pairwise Parameters.Apart →
        ∃ d' ms', d'.toJson = .ok (.object ms') ∧ SetsAll (ps.map (·.parameters)) ms ms' ∧
          (∀ qs : List Patch, qs.Perm ps →
            (s.applyAll (qs.map (·.command b k))).2 = s.store b k d' ∧
            ∀ a ∈ (s.applyAll (qs.map (·.command b k))).1, ∃ d', a = .ok (.value (some d'))) ∧
          ∀ (workers : Nat) (log : List (Ticket Command × Outcome)) (x : Processor),
            Executor.Execution handler workers s log x →
            (log.map (·.1.job)).Perm (ps.map (·.command b k)) →
            x.store = s.store b k d' ∧ ∀ e ∈ log, ∃ d', e.2.reply = .ok (.value (some d')) := by
  refine ⟨apply_merge_of_no_object hmerge hd, fun ms hms hwhole => ?_⟩
  obtain ⟨m, rfl, hspells⟩ := Document.exists_spells hms hwhole
  have h : s.Mergeable b k d m := ⟨hmerge, hd, hspells⟩
  refine ⟨fun p q r hr => ⟨h.apply_apply hr, _, h.apply r⟩, fun p q hq => h.apply_apply ?_,
    fun ps hapart => ?_⟩
  · -- on top of themselves the parameters are what they are
    rw [hq]
    refine SortedMap.ext_get? fun name => ?_
    rw [SortedMap.get?_insertAll_entries, Option.or_self]
  · have hsame : ∀ qs : List Patch, qs.Perm ps →
        patched d m (qs.map (·.parameters)) = patched d m (ps.map (·.parameters)) := fun qs hqs =>
      (patched_perm (hqs.map _).symm hapart).symm
    refine ⟨_, _, (spells_patched hspells (ps.map (·.parameters))).toJson,
      setsAll_joined hapart m, ?_, ?_⟩
    · intro qs hqs
      rw [← hsame qs hqs]
      exact applyAll_patches h qs
    · intro workers log x hx hlog
      -- the work ends in an order of its own
      obtain ⟨qs, hqs, hperm⟩ : ∃ qs : List Patch, log.map (·.1.job) = qs.map (·.command b k) ∧
          qs.Perm ps :=
        exists_map_of_perm hlog
      rw [← hsame qs hperm]
      exact merges_of_execution h hx hqs

/-! ## Fields of counters -/

/-- Two fields, of which the one is there already. -/
def patchAZ : Patch := ⟨"1", 1000, .ofList [("a", "\"0\""), ("z", "")], by decide⟩

def patchM : Patch := ⟨"2", 1, .ofList [("m", "é")], by decide⟩

def patchZ : Patch := ⟨"3", 1, .ofList [("z", "=")], by decide⟩

/-- What the first and the last one come to. -/
def patchBoth : Patch := ⟨"4", 5, .ofList [("a", "\"0\""), ("z", "=")], by decide⟩

theorem apart_patches : ([patchAZ, patchM].map (·.parameters)).Pairwise Parameters.Apart := by
  refine List.pairwise_pair.2 fun name hname => ?_
  have hnames := (SortedMap.contains_ofList _ _).1 hname
  rcases List.mem_pair.1 hnames with rfl | rfl
  · rfl
  · rfl

/-- A field is set twice, and two others in either order. -/
theorem merges_compose_counting : counting.HasBuiltin "merge" ∧
    (counting.contents "b").get? ⟨[107]⟩ = some (.ofJson counters) ∧
    (counting.apply (patchBoth.command "b" ⟨[107]⟩)).1 = .ok (.value (some (.ofText
      "\x7b\"a\":\"\\\"0\\\"\",\"n\":[1,-2,-0.0],\"z\":\"=\"\x7d"))) ∧
    (counting.apply (patchAZ.command "b" ⟨[107]⟩)).2.apply (patchZ.command "b" ⟨[107]⟩) =
      counting.apply (patchBoth.command "b" ⟨[107]⟩) ∧
    ∃ d', (counting.applyAll [patchAZ.command "b" ⟨[107]⟩, patchM.command "b" ⟨[107]⟩]).2 =
        counting.store "b" ⟨[107]⟩ d' ∧
      (counting.applyAll [patchM.command "b" ⟨[107]⟩, patchAZ.command "b" ⟨[107]⟩]).2 =
        counting.store "b" ⟨[107]⟩ d' := by
  have hbuiltin : counting.HasBuiltin "merge" := rfl
  have hstored : (counting.contents "b").get? ⟨[107]⟩ = some (.ofJson counters) := by decide +kernel
  obtain ⟨hpair, -, hany⟩ := (merges_compose hbuiltin hstored).2 _
    (Document.toJson_ofJson stored_counters whole_counters) whole_counters
  obtain ⟨d', -, -, -, horders, -⟩ := hany [patchAZ, patchM] apart_patches
  exact ⟨hbuiltin, hstored, by decide +kernel,
    (hpair patchAZ patchZ patchBoth (by decide +kernel)).1, d',
    (horders _ (.refl _)).1, (horders [patchM, patchAZ] (.swap _ _ _)).1⟩

end BucketCluster.Store
