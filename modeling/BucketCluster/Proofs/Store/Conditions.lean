import BucketCluster.Proofs.Store.Merges
import BucketCluster.Proofs.Store.Redelivery
import BucketCluster.Proofs.Text.Blank

/-!
# Conditions on what an update has written

The condition `json` looks for the text of one field.  Update functions write the parameters
as string members, and the condition reads them back, whatever characters are in them: after
`merge` it sees the parameter of that name, or the field as it was before if there is none, and
after `replace` the parameters are all there is (`condition_sees_update`).

A text that has blanks at its ends is not seen, since the condition takes them away, nor is a
field with `=` in its name, since the name ends there.
-/

namespace BucketCluster

namespace Json

/-- A string has its own text, any other document the one that it is written as. -/
def hasText (text : String) : Json → Bool
  | .string s => s == text
  | j => j.write == Utf8.encode text

end Json

namespace Operators

variable {d d' : Document} {m : SortedMap String Json} {ps : Parameters} {deadline : Deadline}
    {name text : String}

/-- The expression that asks for the text of a field. -/
def asking (name text : String) : String := name ++ "=" ++ text

/-- What the condition asks of an object. -/
theorem jsonField_of_object (hm : d.toJson = .ok (.object m.entries)) (hsep : '=' ∉ name.toList)
    (hname : Text.Trimmed name) (htext : Text.Trimmed text) :
    jsonField d (asking name text) = (m.get? name).any (Json.hasText text) := by
  have hcut : Text.cut '=' (asking name text) = some (name, text) := Text.cut_append hsep text
  have hmember : Json.member? name m.entries = m.get? name := rfl
  unfold jsonField
  rw [hcut, hm]
  simp only [hname.trim_eq, htext.trim_eq, hmember]
  cases m.get? name with
  | none => rfl
  | some j => cases j <;> rfl

/-- The text of a field is what it is set to, or what it was. -/
theorem any_hasText_insertAll (m : SortedMap String Json) (ps : Parameters) (name text : String) :
    ((m.insertAll (members ps)).get? name).any (Json.hasText text) = true ↔
      ps.get? name = some text ∨ ps.get? name = none ∧
      (m.get? name).any (Json.hasText text) = true := by
  rw [get?_insertAll_members]
  cases ps.get? name with
  | none => simp
  | some given => simp [Json.hasText]

/-! ## What the functions write -/

theorem of_mergeDocument (hm : d.toJson = .ok (.object m.entries))
    (h : mergeDocument d ps deadline = .ok d') : d' = merged m ps := by
  rw [mergeDocument_of_object hm] at h
  split at h
  · cases h
  · exact (Except.ok.inj h).symm

/-- To replace is to merge into an object without members. -/
theorem replaceDocument_eq (ps : Parameters) (deadline : Deadline) :
    replaceDocument ps deadline =
      if deadline.expired then .error (.timeout "replace") else .ok (merged ∅ ps) := by
  have hmembers : members ps = (ps.map fun _ text => Json.string text).entries := rfl
  have hall : (∅ : SortedMap String Json).insertAll (members ps) = ps.map fun _ text =>
      .string text := by
    rw [hmembers]
    exact SortedMap.ofList_entries _
  rw [merged, hall, replaceDocument, Deadline.check]
  split <;> rfl

theorem spells_empty : (Document.ofText "\x7b\x7d").Spells ∅ where
  toJson := by rfl
  whole := .object nofun

theorem builtin_replace : ∃ g, builtin.functions.get? "replace" = some g ∧
    (∀ k d ps deadline, g.run k d ps deadline = replaceDocument ps deadline) ∧
    ∀ k d u, g.deadline k d u = u.deadline := by
  refine ⟨_, (SortedMap.get?_insert_of_ne _ _ (by decide)).trans (SortedMap.get?_insert_self _ _ _),
    ?_⟩
  exact ⟨fun _ _ _ _ => rfl, fun _ _ _ => rfl⟩

theorem builtin_json : ∃ c, builtin.conditions.get? "json" = some c ∧
    ∀ k d expression, c.holds k d expression = jsonField d expression :=
  ⟨_, SortedMap.get?_insert_self _ _ _, fun _ _ _ => rfl⟩

end Operators

namespace Store

variable {s s' : Store} {id b name text : String} {k : Key} {d : Document}
  {m : SortedMap String Json} {milliseconds : UInt64} {ps : Parameters} {a : Answer}

/-- `json` stands for the built-in condition. -/
def HasBuiltinJson (s : Store) : Prop :=
    s.operators.conditions.get? "json" = Operators.builtin.conditions.get? "json"

theorem filter_json (h : s.HasBuiltinJson) (expression : String) :
    ∃ f, s.operators.filter (some ⟨"json", expression⟩) = .ok f ∧
      ∀ k d, f.keeps k d = Operators.jsonField d expression := by
  obtain ⟨c, hc, hholds⟩ := Operators.builtin_json
  refine ⟨c.filter expression, ?_, fun k d => hholds k d expression⟩
  have hcondition : s.operators.condition "json" = .ok c := by
    have hget : s.operators.conditions.get? "json" = some c := h.trans hc
    rw [Operators.condition, hget]
  rw [Operators.filter, hcondition]
  rfl

/-! ## After an update -/

/-- A merge that has succeeded has left an object with the parameters among its members. -/
theorem spells_of_merge (hmerge : s.HasBuiltin "merge") (hd : (s.contents b).get? k = some d)
    (hspells : d.Spells m)
    (h : s.apply ⟨id, .updateValue b k ⟨"merge", milliseconds, ps⟩⟩ = (.ok a, s')) :
    ∃ d', a = .value (some d') ∧ (s'.contents b).get? k = some d' ∧
      d'.Spells (m.insertAll (Operators.members ps)) := by
  obtain ⟨g, hg, hrun, -⟩ := Operators.builtin_merge
  obtain ⟨d', hd', rfl, rfl⟩ := ran_of_apply (hmerge.trans hg) hd h
  rw [hrun] at hd'
  obtain rfl := Operators.of_mergeDocument hspells.toJson hd'
  exact ⟨_, rfl, get?_store_self s b k _, Operators.spells_merged hspells ps⟩

/-- A replacement that has succeeded has left an object of the parameters. -/
theorem spells_of_replace (hreplace : s.HasBuiltin "replace") (hd : (s.contents b).get? k = some d)
    (h : s.apply ⟨id, .updateValue b k ⟨"replace", milliseconds, ps⟩⟩ = (.ok a, s')) :
    ∃ d', a = .value (some d') ∧ (s'.contents b).get? k = some d' ∧
      d'.Spells ((∅ : SortedMap String Json).insertAll (Operators.members ps)) := by
  obtain ⟨g, hg, hrun, -⟩ := Operators.builtin_replace
  obtain ⟨d', hd', rfl, rfl⟩ := ran_of_apply (hreplace.trans hg) hd h
  rw [hrun, Operators.replaceDocument_eq] at hd'
  split at hd'
  · cases hd'
  · cases hd'
    exact ⟨_, rfl, get?_store_self s b k _, Operators.spells_merged Operators.spells_empty ps⟩

/-- With any time at all, a replacement succeeds. -/
theorem replace_succeeds (hreplace : s.HasBuiltin "replace") (hd : (s.contents b).get? k = some d)
    (id : String) (htime : milliseconds ≠ 0) (ps : Parameters) :
    ∃ a, (s.apply ⟨id, .updateValue b k ⟨"replace", milliseconds, ps⟩⟩).1 = .ok a := by
  obtain ⟨g, hg, hrun, hclock⟩ := Operators.builtin_replace
  have hnever : g.deadline k d ⟨"replace", milliseconds, ps⟩ = .never :=
    (hclock k d _).trans (Update.deadline_of_ne htime)
  have hd' : g.run k d ps (g.deadline k d ⟨"replace", milliseconds, ps⟩) =
      .ok (Operators.merged ∅ ps) := by
    rw [hrun, Operators.replaceDocument_eq, hnever]
    rfl
  rw [apply_of_run id (hreplace.trans hg) hd hd' hnever]
  exact ⟨_, rfl⟩

/-- **The condition sees exactly what an update has written.**  A field is asked for whose
name has no `=`, with a text; neither starts or ends with a blank.  After a merge into an
object the condition holds of the new document just if the text is the parameter of that
name, or there is none and it held before; after a replacement, just if the text is the
parameter.  Both succeed if they have any time at all. -/
theorem condition_sees_update (hjson : s.HasBuiltinJson) (hd : (s.contents b).get? k = some d)
    (hsep : '=' ∉ name.toList) (hname : Text.Trimmed name) (htext : Text.Trimmed text) :
    ∃ f, s.operators.filter (some ⟨"json", Operators.asking name text⟩) = .ok f ∧
      (s.HasBuiltin "merge" → ∀ ms, d.toJson = .ok (.object ms) → (Json.object ms).Whole →
        ∀ id milliseconds ps,
        (milliseconds ≠ 0 → ∃ a,
          (s.apply ⟨id, .updateValue b k ⟨"merge", milliseconds, ps⟩⟩).1 = .ok a) ∧
        ∀ a s', s.apply ⟨id, .updateValue b k ⟨"merge", milliseconds, ps⟩⟩ = (.ok a, s') →
          ∃ d', a = .value (some d') ∧ (s'.contents b).get? k = some d' ∧
            (f.keeps k d' = true ↔
              ps.get? name = some text ∨ ps.get? name = none ∧ f.keeps k d = true)) ∧
      (s.HasBuiltin "replace" → ∀ id milliseconds ps,
        (milliseconds ≠ 0 → ∃ a,
          (s.apply ⟨id, .updateValue b k ⟨"replace", milliseconds, ps⟩⟩).1 = .ok a) ∧
        ∀ a s', s.apply ⟨id, .updateValue b k ⟨"replace", milliseconds, ps⟩⟩ = (.ok a, s') →
          ∃ d', a = .value (some d') ∧ (s'.contents b).get? k = some d' ∧
            (f.keeps k d' = true ↔ ps.get? name = some text)) := by
  obtain ⟨f, hf, hkeeps⟩ := filter_json hjson (Operators.asking name text)
  have hasks {d : Document} {m : SortedMap String Json} (h : d.Spells m) :
      f.keeps k d = (m.get? name).any (Json.hasText text) := by
    rw [hkeeps, Operators.jsonField_of_object h.toJson hsep hname htext]
  refine ⟨f, hf, fun hmerge ms hms hwhole id milliseconds ps => ?_,
    fun hreplace id milliseconds ps => ?_⟩
  · obtain ⟨m, rfl, hspells⟩ := Document.exists_spells hms hwhole
    refine ⟨fun htime =>
      ⟨_, congrArg Prod.fst ((Mergeable.mk hmerge hd hspells).apply ⟨id, _, ps, htime⟩)⟩, ?_⟩
    intro a s' happly
    obtain ⟨d', ha, hd', hspells'⟩ := spells_of_merge hmerge hd hspells happly
    refine ⟨d', ha, hd', ?_⟩
    rw [hasks hspells', hasks hspells]
    exact Operators.any_hasText_insertAll m ps name text
  · refine ⟨fun htime => replace_succeeds hreplace hd id htime ps, fun a s' happly => ?_⟩
    obtain ⟨d', ha, hd', hspells'⟩ := spells_of_replace hreplace hd happly
    refine ⟨d', ha, hd', ?_⟩
    rw [hasks hspells', Operators.any_hasText_insertAll]
    simp

/-- Parameters with the separator and quotes in a text. -/
def quoted : Parameters := .ofList [("q", "a=\"b\""), ("z", "")]

def quotedMerged : Document :=
  .ofText "\x7b\"a\":18446744073709551615,\"n\":[1,-2,-0.0],\"q\":\"a=\\\"b\\\"\",\"z\":\"\"\x7d"

def quotedAlone : Document := .ofText "\x7b\"q\":\"a=\\\"b\\\"\",\"z\":\"\"\x7d"

/-- How an update of the counters ends. -/
def countingAfter (function : String) : Except StoreError Answer × Store :=
  counting.apply ⟨"1", .updateValue "b" ⟨[107]⟩ ⟨function, 1000, quoted⟩⟩

theorem condition_sees_update_counting : counting.HasBuiltinJson ∧ counting.HasBuiltin "merge" ∧
    counting.HasBuiltin "replace" ∧ (counting.contents "b").get? ⟨[107]⟩ = some (.ofJson counters) ∧
    '=' ∉ "q".toList ∧ Text.Trimmed "q" ∧ Text.Trimmed "a=\"b\"" ∧
    countingAfter "merge" = (.ok (.value (some quotedMerged)), (countingAfter "merge").2) ∧
    countingAfter "replace" = (.ok (.value (some quotedAlone)), (countingAfter "replace").2) ∧
    ∃ f, counting.operators.filter (some ⟨"json", Operators.asking "q" "a=\"b\""⟩) = .ok f ∧
      f.keeps ⟨[107]⟩ quotedMerged = true ∧ f.keeps ⟨[107]⟩ quotedAlone = true := by
  have hstored : (counting.contents "b").get? ⟨[107]⟩ = some (.ofJson counters) := by decide +kernel
  have hsep : '=' ∉ "q".toList := by decide
  have hname : Text.Trimmed "q" := by decide +kernel
  have htext : Text.Trimmed "a=\"b\"" := by decide +kernel
  have hmerged : countingAfter "merge" =
      (.ok (.value (some quotedMerged)), (countingAfter "merge").2) :=
    Prod.ext (by decide +kernel) rfl
  have hreplaced : countingAfter "replace" =
      (.ok (.value (some quotedAlone)), (countingAfter "replace").2) :=
    Prod.ext (by decide +kernel) rfl
  have hgiven : quoted.get? "q" = some "a=\"b\"" := by decide +kernel
  obtain ⟨f, hf, hmerge, hreplace⟩ :=
    condition_sees_update (s := counting) rfl hstored hsep hname htext
  obtain ⟨_, hm, -, hmerge⟩ := (hmerge rfl _ (Document.toJson_ofJson stored_counters whole_counters)
    whole_counters _ _ _).2 _ _ hmerged
  obtain ⟨_, hr, -, hreplace⟩ := (hreplace rfl _ _ _).2 _ _ hreplaced
  cases hm
  cases hr
  exact ⟨rfl, rfl, rfl, hstored, hsep, hname, htext, hmerged, hreplaced, f, hf,
    hmerge.2 (.inl hgiven), hreplace.2 hgiven⟩

end Store

end BucketCluster
