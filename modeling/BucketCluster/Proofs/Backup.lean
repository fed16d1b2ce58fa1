import BucketCluster.Backup
import BucketCluster.Proofs.BackupDirectory
import BucketCluster.Proofs.Message
import BucketCluster.Proofs.Text.Blank

/-!
# Backups are read back

The line of an entry is printable text that begins with a brace, so cutting a file
at its line feeds gives back the lines that were written, none of them is passed over
as blank, and each is read as its entry (`listed_written`).  A directory that accepts
a name gives back exactly the entries that were exported under it
(`importEntries_of_exported`).
-/

namespace BucketCluster

namespace BackupDirectory

/-! ## One entry -/

theorem entrySchema_lawful : entrySchema.Lawful := by
  rw [entrySchema, Schema.Lawful]
  exact ⟨⟨trivial, Document.schema_lawful, trivial⟩, fun _ => rfl⟩

theorem entrySchema_spelled : entrySchema.Spelled := by
  rw [entrySchema, Schema.Spelled]
  exact ⟨⟨trivial, Document.schema_spelled, trivial⟩, by decide⟩

/-- What stands in the file for an entry, in front of the line feed. -/
def body (e : Key × Document) : Bytes :=
  Json.writeObject [("key", Json.writeKey e.1), ("value", Json.writeOctets e.2.bytes)]

theorem write_entry (e : Key × Document) : entrySchema.write e = some (body e) := rfl

theorem line_eq (e : Key × Document) : line e = body e ++ [10] := rfl

theorem parse_body (e : Key × Document) : entrySchema.parse (body e) = .ok e :=
  Schema.parse_write entrySchema_lawful entrySchema_spelled (write_entry e)

theorem printable_body (e : Key × Document) : Json.Printable (body e) :=
  entrySchema.printable_write (write_entry e)

/-- The line is text, and not a blank one. -/
theorem decode?_body (e : Key × Document) : ∃ text, Utf8.decode? (body e) = some text ∧
    (Text.trim text).isEmpty = false := by
  obtain ⟨cs, hcs⟩ := (printable_body e).text
  refine ⟨String.ofList cs, ?_, ?_⟩
  · have hencode : Utf8.encode (String.ofList cs) = body e := by
      rw [Utf8.encode, String.toList_ofList, hcs]
    rw [← hencode, Utf8.decode?_encode]
  · rw [Bool.eq_false_iff, ne_eq, Text.isEmpty_trim, String.toList_ofList]
    intro hblank
    have hpieces : Utf8.pieces .start (body e) = cs.map some := by
      rw [← hcs, Utf8.pieces_encodeChars]
    have hbrace : Utf8.pieces .start (body e) = some '{' :: Utf8.pieces .start (body e).tail := rfl
    rw [hbrace] at hpieces
    cases cs with
    | nil => cases hpieces
    | cons c cs =>
      have hc : some '{' = some c := (List.cons.inj hpieces).1
      cases hc
      exact absurd (hblank '{' List.mem_cons_self) (by decide)

/-! ## Lines -/

theorem linesAux_feed {current : Bytes} (h : 13 ∉ current) (rest : Bytes) :
    linesAux current (10 :: rest) = current.reverse :: linesAux [] rest := by
  rw [linesAux, if_pos rfl]
  -- no carriage return is taken off
  rintro tail rfl
  exact h List.mem_cons_self

theorem linesAux_cons {b : UInt8} (h : b ≠ 10) (current rest : Bytes) :
    linesAux current (b :: rest) = linesAux (b :: current) rest := by
  show (if b = 10 then _ else _) = _
  rw [if_neg h]

/-- A line without control characters ends at the line feed behind it. -/
theorem linesAux_append {current text : Bytes} (hcurrent : ∀ b ∈ current, 32 ≤ b)
    (htext : ∀ b ∈ text, 32 ≤ b) (rest : Bytes) :
    linesAux current (text ++ 10 :: rest) = (current.reverse ++ text) :: linesAux [] rest := by
  induction text generalizing current with
  | nil =>
    have hreturn : 13 ∉ current := fun h => absurd (hcurrent 13 h) (by decide)
    rw [List.nil_append, List.append_nil, linesAux_feed hreturn]
  | cons b text ih =>
    have hb : 32 ≤ b := htext b List.mem_cons_self
    have hne : b ≠ 10 := by
      rintro rfl
      exact absurd hb (by decide)
    rw [List.cons_append, linesAux_cons hne, ih (List.forall_mem_cons.2 ⟨hb, hcurrent⟩)
      fun c hc => htext c (List.mem_cons_of_mem _ hc), List.reverse_cons, List.append_assoc,
        List.singleton_append]

/-- The lines of a backup are those of its entries. -/
theorem lines_written (es : List (Key × Document)) : lines (es.flatMap line) = es.map body := by
  induction es with
  | nil => rfl
  | cons e es ih =>
    rw [List.flatMap_cons, line_eq, List.append_assoc, List.singleton_append, lines,
      linesAux_append (fun _ h => absurd h List.not_mem_nil) (printable_body e).visible,
        ← lines, ih]
    rfl

/-- The lines that were written hold the entries. -/
theorem listed_written (es : List (Key × Document)) : Listed (es.map body) es := by
  induction es with
  | nil => exact .nil
  | cons e es ih =>
    obtain ⟨text, htext, hblank⟩ := decode?_body e
    refine .entry ?_ ?_ (parse_body e) ih
    · rw [htext]
      rfl
    · rw [isBlankLine, htext]
      exact hblank

/-! ## Files -/

/-- A directory that takes a backup under the given name: the file system takes the longer
name under which it is begun, neither name stands for a directory, and no call fails. -/
structure Accepts (dir : BackupDirectory) (name : String) : Prop where
  usable : isUsable (partialName name) = true
  unfinished : dir.listing.get? (partialName name) ≠ some .directory
  final : dir.listing.get? name ≠ some .directory
  faultless : dir.faults.get? name = none

/-- No call is refused. -/
theorem exportEntries_of_accepts {dir : BackupDirectory} {name : String}
    (hname : isBackupName name = true) (h : dir.Accepts name) (es : List (Key × Document)) :
    exportEntries dir name es = (.ok es.length, (dir.withListing dir.listing).withListing
      ((dir.listing.erase (partialName name)).insert name (.file (es.flatMap line)))) := by
  refine (Exporting.finished (checkName_eq_ok.2 hname) ?_ ?_ ?_ ?_).exportEntries_eq
  · rw [directoryRefusal?, h.faultless]
  · simp only [createRefusal?, h.usable, Bool.not_true, Bool.false_eq_true, if_false, h.faultless]
    exact if_neg h.unfinished
  · rw [writeRefusal?, h.faultless]
  · simp only [renameRefusal?, h.faultless]
    exact if_neg h.final

/-- The file holds the lines of the entries. -/
theorem content?_exported {dir : BackupDirectory} {name : String} (hname : isBackupName name = true)
    (h : dir.Accepts name) (es : List (Key × Document)) :
    (exportEntries dir name es).2.content? name = some (es.flatMap line) := by
  rw [exportEntries_of_accepts hname h]
  unfold content?
  rw [listing_withListing, SortedMap.get?_insert_self]

/-- The entries are read back wherever the file is. -/
theorem importEntries_of_exported {dir : BackupDirectory} {name : String}
    (hname : isBackupName name = true) {es : List (Key × Document)}
    (h : dir.content? name = some (es.flatMap line)) :
    importEntries dir name = .ok es := by
  refine importEntries_eq_ok.2 ⟨hname, es.flatMap line, h, ?_⟩
  rw [lines_written]
  exact listed_written es

end BackupDirectory

end BucketCluster
