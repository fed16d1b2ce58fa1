import BucketCluster.Proofs.Coordination.Placement
import BucketCluster.Proofs.Message
import BucketCluster.Service

/-!
# What clients are told

An answer is told to a client as JSON, and the client reads the very answer that the
coordinator has (`answer_told`).  There is one exception: in JSON the keys of a map are
member names, which are texts, and the documents that a command finds may have other
keys.  Such an answer is not told at all, although the status says that all is well;
the keys of entries and key lists, where they stand for themselves, are told as they are.
-/

namespace BucketCluster

/-! ## Answers that have a JSON form -/

/-- The keys of a map of documents are texts, all of them. -/
def Answer.hasTextKeys : Answer → Bool
  | .values vs => vs.keys.all fun k => k.text?.isSome
  | _ => true

theorem Answer.writable_iff (a : Answer) : Answer.schema.Writable a ↔ a.hasTextKeys = true := by
  rw [Answer.schema, Schema.Writable]
  cases a with
  | values vs =>
    simp only [Cases.Writable, Bool.false_eq_true, false_or, hasTextKeys]
    rw [Schema.keyMap, Schema.Writable, SortedMap.keys, List.all_map, List.all_eq_true]
    exact forall₂_congr fun e _ => and_iff_left (Document.writable e.2)
  | value v => cases v <;> simp [Cases.Writable, Schema.Writable, Document.writable, hasTextKeys]
  | _ => simp [Cases.Writable, Schema.Writable, Document.writable, hasTextKeys]

namespace Service

open Network

/-- **Answers reach the client as they are.**  Whatever a command has found, the client is
told a JSON text that is read as this very answer, unless the answer maps a key that is no
text; such an answer has no JSON text, and the client is told an excuse. -/
theorem answer_told (a : Answer) :
    (a.hasTextKeys = true → ∃ text, ofAnswer a = ⟨200, jsonType, text⟩ ∧
      Answer.schema.write a = some text ∧
      Answer.schema.parse text = .ok a) ∧
    (a.hasTextKeys = false → ofAnswer a = ⟨200, textType, Utf8.encode "key must be a string"⟩ ∧
      Answer.schema.write a = none) := by
  have hwritable : (Answer.schema.write a).isSome = true ↔ a.hasTextKeys = true :=
    (Answer.schema.write_isSome_iff a).trans a.writable_iff
  refine ⟨fun hkeys => ?_, fun hkeys => ?_⟩
  · obtain ⟨text, hw⟩ := Option.isSome_iff_exists.1 (hwritable.2 hkeys)
    refine ⟨text, ?_, hw, Schema.parse_write Answer.schema_lawful Answer.schema_spelled hw⟩
    rw [ofAnswer, hw]
  · have hw : Answer.schema.write a = none := by
      rw [← Option.not_isSome_iff_eq_none, hwritable, hkeys]
      exact Bool.false_ne_true
    refine ⟨?_, hw⟩
    rw [ofAnswer, hw]

/-- The bytes of an entry's key are told as such. -/
theorem answer_told_oddEntry :
    ∃ text, ofAnswer (.entries [(⟨[255]⟩, ⟨[1]⟩)]) = ⟨200, jsonType, text⟩ ∧
    Answer.schema.parse text = .ok (.entries [(⟨[255]⟩, ⟨[1]⟩)]) := by
  obtain ⟨text, htold, -, hread⟩ := (answer_told (.entries [(⟨[255]⟩, ⟨[1]⟩)])).1 rfl
  exact ⟨text, htold, hread⟩

/-- A document has been stored under a key that is no text. -/
def oddNetwork : Network :=
  (pairNetwork.resolve leftRouter ⟨"1", .putValue "b" ⟨[255]⟩ ⟨[1]⟩ none⟩).2

/-- A client asks for the document. -/
def oddQuestion : Command := ⟨"2", .getValues "b" (.ofElements [⟨[255]⟩]) none⟩

def oddAnswer : Answer := .values (.ofList [(⟨[255]⟩, ⟨[1]⟩)])

/-- The coordinator has the answer, and the client is told that all is well, but no JSON. -/
theorem oddAnswer_untold : ∃ request, Command.schema.parse request = .ok oddQuestion ∧
    (oddNetwork.resolve leftRouter oddQuestion).1 = some (.ok oddAnswer) ∧
    (command oddNetwork leftRouter request).1 =
      some ⟨200, textType, Utf8.encode "key must be a string"⟩ ∧
    Answer.schema.write oddAnswer = none := by
  refine ⟨(Command.schema.write oddQuestion).getD [], by decide +kernel, ?_, ?_, by decide +kernel⟩
  · unfold oddNetwork
    rw [leftRouter_eq]
    decide +kernel
  · unfold oddNetwork
    rw [leftRouter_eq]
    decide +kernel

end Service

end BucketCluster
