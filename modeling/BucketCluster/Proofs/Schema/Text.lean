import BucketCluster.Proofs.Json.Structure
import BucketCluster.Proofs.Lists
import BucketCluster.Proofs.Schema.Wire
import BucketCluster.Schema.Text

/-!
# The JSON format is read back

Beyond being lawful, a schema has to be spelled unambiguously: an optional value is
never written as `null`, fields and alternatives have different names, and the name
of a map's key leads back to the key (`Schema.Spelled`).  Then whatever is written is
read back off the front of a text, `reads_write`, and as a whole, `parse_write`.
-/

namespace BucketCluster

open Json (Reader Reads EndsNumber Chain quoted quote)

namespace Json

/-! ## Simple values -/

theorem reads_quote (s : String) : Reads readText s (quote s) where
  opens := opens_quote s
  read t _ := by
    rw [quote_eq, List.cons_append, readText, skipBlanks_cons (by decide)]
    exact stringTail_quoted s t

theorem reads_decimal {n : Nat} (bound : Nat) (h : n < bound) (hbound : bound ≤ UInt64.size) :
    Reads (readNatural bound) n (Bytes.decimal n) where
  opens := .decimal n
  read t ht := by
    have hread := readNumber_decimal (Nat.lt_of_lt_of_le h hbound) ht
    have hskip := skipBlanks_opens (.decimal n) t
    obtain ⟨d, ds, hds, hdigit, -⟩ := Bytes.decimal_cons n
    unfold readNatural
    rw [hskip]
    rw [hds, List.cons_append] at hread ⊢
    have hin : (0 : Int) ≤ n ∧ (n : Int) < bound := by omega
    simp only [hdigit, Bool.or_true, if_true, hread]
    show (if (0 : Int) ≤ n ∧ (n : Int) < bound then Except.ok ((n : Int).toNat, t) else _) = _
    rw [if_pos hin, Int.toNat_natCast]

theorem Reads.map {α β : Type} {item : Reader α} {x : α} {text : Bytes} (h : Reads item x text)
    (f : α → β) : Reads (fun bs => (item bs).map fun (x, bs) => (f x, bs)) (f x) text where
  opens := h.opens
  read t ht := by
    show (item (text ++ t)).map _ = _
    rw [h.read t ht]
    rfl

theorem reads_writeList {α : Type} {item : Reader α} {xs : List α} {texts : List Bytes}
    (h : List.Forall₂ (Reads item) xs texts) : Reads (readList item) xs (writeList texts) where
  opens := opens_writeList texts
  read t _ := by
    rw [writeList_eq, readList, skipBlanks_cons (by decide)]
    exact listTail_writeList h t

theorem reads_writeOctets (bs : Bytes) : Reads readOctets bs (writeOctets bs) := by
  refine reads_writeList ?_
  rw [List.forall₂_map_right_iff, List.forall₂_same]
  intro b _
  have hread := (reads_decimal 256 b.toNat_lt (by decide)).map UInt8.ofNat
  rwa [UInt8.ofNat_toNat] at hread

theorem reads_writeKey (k : Key) : Reads readKey k (writeKey k) := by
  unfold writeKey
  cases hk : k.text? with
  | some s =>
    have hkey : Key.ofText s = k := by
      rw [Key.ofText, Utf8.encode_of_decode? hk]
    refine ⟨opens_quote s, fun t _ => ?_⟩
    simp only [quote_eq, List.cons_append]
    rw [readKey, skipBlanks_cons (by decide)]
    simp only [stringTail_quoted]
    show Except.ok (Key.ofText s, t) = _
    rw [hkey]
  | none =>
    have hread := (reads_writeOctets k.bytes).map Key.mk
    refine ⟨hread.opens, fun t ht => ?_⟩
    simp only
    rw [← hread.read t ht, readKey, skipBlanks_opens hread.opens]
    rfl

theorem reads_null {α : Type} (item : Reader α) : Reads (readOption item) none nullText where
  opens := .cons (by decide) _
  read t _ := by
    rw [nullText, List.cons_append, readOption, skipBlanks_cons (by decide)]
    simp only [expectWord_append]
    rfl

theorem reads_some {α : Type} {item : Reader α} {x : α} {text : Bytes} (h : Reads item x text)
    (hnull : text.head? ≠ some 110) : Reads (readOption item) (some x) text where
  opens := h.opens
  read t ht := by
    have hskip := skipBlanks_opens h.opens t
    have hread := (h.map some).read t ht
    obtain ⟨b, rest, rfl, -⟩ := h.opens
    rw [readOption, hskip, ← hread]
    simp only [List.cons_append]
    split
    · next heq =>
      cases heq
      exact absurd rfl hnull
    · rfl

theorem reads_writePair {α β : Type} {item₁ : Reader α} {item₂ : Reader β} {x : α} {y : β}
    {text₁ text₂ : Bytes} (h₁ : Reads item₁ x text₁) (h₂ : Reads item₂ y text₂) :
    Reads (readPair item₁ item₂) (x, y) (writeList [text₁, text₂]) where
  opens := opens_writeList _
  read t _ := by
    have hread₁ := h₁.read (44 :: (text₂ ++ 93 :: t)) (.cons (by decide) _)
    have hread₂ := h₂.read (93 :: t) (.cons (by decide) _)
    rw [writeList_eq, readPair, skipBlanks_cons (by decide)]
    simp only [commaSeparated, List.append_assoc, List.cons_append, nextField]
    rw [nextElement_first h₁.opens]
    show ((item₁ _ >>= _) : Except Fault _) = _
    rw [hread₁]
    show (((nextElement false (44 :: (text₂ ++ 93 :: t)) >>= _) >>= _) : Except Fault _) = _
    rw [nextElement_comma h₂.opens]
    show ((item₂ _ >>= _) : Except Fault _) = _
    rw [hread₂]
    rfl

/-- The members of a map, read in the order in which they were written. -/
theorem chain_members {κ ν : Type} {value : Reader ν} {ofName : String → κ} {es : List (κ × ν)}
    {ws : List (String × Bytes)}
    (h : List.Forall₂ (fun e w => ofName w.1 = e.1 ∧ Reads value e.2 w.2) es ws)
    (acc : List (String × ν)) :
    ∃ ms, ms.map (fun m => (ofName m.1, m.2)) = es ∧ Chain (fun ms bs => do
      let (name, bs) ← stringTail bs
      let bs ← colon bs
      let (x, bs) ← value bs
      .ok (ms ++ [(name, x)], bs)) ws acc (acc ++ ms) := by
  induction h generalizing acc with
  | nil => exact ⟨[], rfl, by rw [List.append_nil]; exact .nil acc⟩
  | @cons e w es ws he _ ih =>
    obtain ⟨ms, hms, hchain⟩ := ih (acc ++ [(w.1, e.2)])
    refine ⟨(w.1, e.2) :: ms, by rw [List.map_cons, hms, he.1], ?_⟩
    rw [List.append_assoc, List.singleton_append] at hchain
    refine .cons (fun t ht => ?_) hchain
    rw [stringTail_quoted]
    show ((value (w.2 ++ t) >>= _) : Except Fault _) = _
    rw [he.2.read t ht]
    rfl

end Json

/-! ## Spelled schemas -/

def Fields.names : {α σ : Type} → Fields α σ → List String
  | _, _, .nil => []
  | _, _, .field name _ _ rest => name :: rest.names

def Cases.names : {α : Type} → Cases α → List String
  | _, .nil => []
  | _, .unit name _ _ rest => name :: rest.names
  | _, .case name _ _ _ rest => name :: rest.names

mutual

/-- No two messages are written alike in JSON. -/
def Schema.Spelled : {α : Type} → Schema α → Prop
  | _, .text => True
  | _, .octets => True
  | _, .key => True
  | _, .word32 => True
  | _, .word64 => True
  | _, .option item => item.Spelled ∧ ∀ x text, item.write x = some text → text.head? ≠ some 110
  | _, .list item => item.Spelled
  | _, .pair first second => first.Spelled ∧ second.Spelled
  | _, @Schema.set _ _ _ item => item.Spelled
  | _, @Schema.map _ _ _ _ name? ofName _ value =>
    value.Spelled ∧ ∀ k name, name? k = some name → ofName name = k
  | _, .refine inner _ _ => inner.Spelled
  | _, .record fields _ _ => fields.Spelled ∧ fields.names.Nodup
  | _, .choice cases => cases.Spelled ∧ cases.names.Nodup

def Fields.Spelled : {α σ : Type} → Fields α σ → Prop
  | _, _, .nil => True
  | _, _, .field _ shape _ rest => shape.Spelled ∧ rest.Spelled

def Cases.Spelled : {α : Type} → Cases α → Prop
  | _, .nil => True
  | _, .unit _ _ _ rest => rest.Spelled
  | _, .case _ shape _ _ rest => shape.Spelled ∧ rest.Spelled

end

/-! ## Fields -/

namespace Fields

variable {α β σ : Type}

/-- Reads a member into the slots, its name first; members without a field are passed over. -/
def member (fields : Fields α σ) (slots : σ) : Reader σ := fun bs => do
  let (name, bs) ← Json.stringTail bs
  match fields.readMember name slots bs with
  | some read => read
  | none => (Json.skipMember bs).map (slots, ·)

/-- The members are read into slots, one after the other. -/
inductive Fills (fields : Fields α σ) : List (String × Bytes) → σ → σ → Prop
  | nil (slots : σ) : Fills fields [] slots slots
  | cons {name : String} {text : Bytes} {ms : List (String × Bytes)} {slots slots' slots'' : σ}
      (read : ∀ t, EndsNumber t → fields.readMember name slots (58 :: (text ++ t)) =
        some (.ok (slots', t)))
      (more : Fills fields ms slots' slots'') : Fills fields ((name, text) :: ms) slots slots''

theorem Fills.chain {fields : Fields α σ} {ms : List (String × Bytes)} {slots slots' : σ}
    (h : fields.Fills ms slots slots') : Chain fields.member ms slots slots' := by
  induction h with
  | nil slots => exact .nil slots
  | @cons name text ms slots slots' slots'' hread _ ih =>
    refine .cons (fun t ht => ?_) ih
    rw [member, Json.stringTail_quoted]
    show (match fields.readMember name slots (58 :: (text ++ t)) with
      | some read => read
      | none => (Json.skipMember _).map (slots, ·)) = _
    rw [hread t ht]

/-- Members of later fields leave the slot of the first one alone. -/
theorem Fills.behind {rest : Fields β σ} {ms : List (String × Bytes)} {slots slots' : σ}
    {name : String} (shape : Schema α) (default : Default α) (x : Option α)
    (h : rest.Fills ms slots slots')
    (hname : name ∉ ms.map (·.1)) :
    (field name shape default rest).Fills ms (x, slots) (x, slots') := by
  induction h with
  | nil slots => exact .nil (x, slots)
  | @cons name' text ms slots slots' slots'' hread _ ih =>
    rw [List.map_cons, List.mem_cons, not_or] at hname
    refine .cons (fun t ht => ?_) (ih hname.2)
    rw [readMember, if_neg hname.1, hread t ht]
    rfl

end Fields

/-! ## Round trips -/

mutual

/-- **What was written is read back**, whatever follows it. -/
theorem Schema.reads_write : {α : Type} → (schema : Schema α) → schema.Lawful → schema.Spelled →
    ∀ {x : α} {text : Bytes}, schema.write x = some text → Reads schema.read x text
  | _, .text, _, _, s, text, hw => by
    cases hw
    exact Json.reads_quote s
  | _, .octets, _, _, bs, text, hw => by
    cases hw
    exact Json.reads_writeOctets bs
  | _, .key, _, _, k, text, hw => by
    cases hw
    exact Json.reads_writeKey k
  | _, .word32, _, _, n, text, hw => by
    cases hw
    have hread := (Json.reads_decimal _ n.toNat_lt (by decide)).map UInt32.ofNat
    rw [UInt32.ofNat_toNat] at hread
    exact hread
  | _, .word64, _, _, n, text, hw => by
    cases hw
    have hread := (Json.reads_decimal _ n.toNat_lt (by decide)).map UInt64.ofNat
    rw [UInt64.ofNat_toNat] at hread
    exact hread
  | _, .option item, _, _, none, text, hw => by
    cases hw
    exact Json.reads_null item.read
  | _, .option item, h, h', some x, text, hw => by
    rw [Schema.Lawful] at h
    rw [Schema.Spelled] at h'
    rw [Schema.write] at hw
    exact Json.reads_some (Schema.reads_write item h h'.1 hw) (h'.2 x text hw)
  | _, .list item, h, h', xs, text, hw => by
    rw [Schema.Lawful] at h
    rw [Schema.Spelled] at h'
    rw [Schema.write, Option.map_eq_some_iff] at hw
    obtain ⟨texts, htexts, rfl⟩ := hw
    exact Json.reads_writeList
      ((forall₂_of_mapM htexts).imp fun x text => Schema.reads_write item h.1 h')
  | _, .pair first second, h, h', (x, y), text, hw => by
    rw [Schema.Lawful] at h
    rw [Schema.Spelled] at h'
    rw [Schema.write] at hw
    obtain ⟨text₁, hfirst, hw⟩ := Option.bind_eq_some_iff.1 hw
    obtain ⟨text₂, hsecond, hw⟩ := Option.bind_eq_some_iff.1 hw
    cases hw
    exact Json.reads_writePair (Schema.reads_write first h.1 h'.1 hfirst)
      (Schema.reads_write second h.2 h'.2 hsecond)
  | _, @Schema.set _ _ _ item, h, h', s, text, hw => by
    rw [Schema.Lawful] at h
    obtain ⟨hitem, -, hlaw⟩ := h
    rw [Schema.Spelled] at h'
    rw [Schema.write, Option.map_eq_some_iff] at hw
    obtain ⟨texts, htexts, rfl⟩ := hw
    have hread := (Json.reads_writeList ((forall₂_of_mapM htexts).imp fun x text =>
      Schema.reads_write item hitem h')).map SortedSet.ofElements
    rw [SortedSet.ofElements_keys] at hread
    exact hread
  | _, @Schema.map _ _ _ _ name? ofName keys value, h, h', m, text, hw => by
    rw [Schema.Lawful] at h
    obtain ⟨-, hvalue, -, hlaw⟩ := h
    rw [Schema.Spelled] at h'
    rw [Schema.write, Option.map_eq_some_iff] at hw
    obtain ⟨ws, hws, rfl⟩ := hw
    have hentries : List.Forall₂ (fun e w => ofName w.1 = e.1 ∧ Reads value.read e.2 w.2)
        m.entries ws := by
      refine (forall₂_of_mapM hws).imp fun e w hw => ?_
      obtain ⟨name, hname, hw⟩ := Option.bind_eq_some_iff.1 hw
      obtain ⟨text, htext, hw⟩ := Option.bind_eq_some_iff.1 hw
      cases hw
      exact ⟨h'.2 e.1 name hname, Schema.reads_write value hvalue h'.1 htext⟩
    obtain ⟨ms, hms, hchain⟩ := Json.chain_members hentries []
    refine ⟨Json.opens_writeObject ws, fun t _ => ?_⟩
    rw [Json.writeObject_eq, Schema.read, Json.readMembers, Json.skipBlanks_cons (by decide)]
    simp only [Json.members_writeObject hchain]
    show Except.ok (SortedMap.ofList (ms.map _), t) = _
    rw [hms, SortedMap.ofList_entries]
  | _, .refine inner make parts, h, h', x, text, hw => by
    rw [Schema.Lawful] at h
    rw [Schema.Spelled] at h'
    rw [Schema.write] at hw
    have hread := Schema.reads_write inner h.1 h' hw
    refine ⟨hread.opens, fun t ht => ?_⟩
    rw [Schema.read, hread.read t ht]
    show (match make (parts x) with
      | some x => Except.ok (x, t)
      | none => .error Json.Fault.mismatched) = _
    rw [h.2]
  | _, .record fields make parts, h, h', x, text, hw => by
    rw [Schema.Lawful] at h
    rw [Schema.Spelled] at h'
    rw [Schema.write, Option.map_eq_some_iff] at hw
    obtain ⟨ms, hms, rfl⟩ := hw
    obtain ⟨slots, -, hfills, hcollect⟩ := Fields.fills_write fields h.1 h'.1 h'.2 hms
    refine ⟨Json.opens_writeObject ms, fun t _ => ?_⟩
    rw [Json.writeObject_eq, Schema.read, Json.skipBlanks_cons (by decide)]
    show (Json.members fields.member fields.noSlots _ >>= _) = _
    rw [Json.members_writeObject hfills.chain]
    show (match fields.collect slots with
      | none => Except.error Json.Fault.mismatched
      | some y => Except.ok (make y, t)) = _
    rw [hcollect]
    exact congrArg (fun x => Except.ok (x, t)) (h.2 x)
  | _, .choice cases, h, h', x, text, hw => by
    rw [Schema.Lawful] at h
    rw [Schema.Spelled] at h'
    rw [Schema.write] at hw
    obtain ⟨name, -, ⟨rfl, hbare⟩ | ⟨inner, rfl, hcase⟩⟩ := Cases.names_write cases h.1 h'.1 h'.2 hw
    · refine ⟨Json.opens_quote name, fun t _ => ?_⟩
      rw [Json.quote_eq, List.cons_append, Schema.read, Json.skipBlanks_cons (by decide)]
      simp only [Json.stringTail_quoted]
      show (match cases.bare? name with
        | some x => Except.ok (x, t)
        | none => .error Json.Fault.mismatched) = _
      rw [hbare]
    · refine ⟨Json.opens_writeObject _, fun t _ => ?_⟩
      rw [Json.writeObject_eq, Schema.read, Json.skipBlanks_cons (by decide)]
      simp only [List.map_cons, List.map_nil, Json.commaSeparated, Json.memberText_append]
      show (Json.stringTail (quoted name ++ _) >>= _) = _
      rw [Json.stringTail_quoted]
      show (match cases.readCase name (58 :: (inner ++ 125 :: t)) with
        | none => Except.error Json.Fault.mismatched
        | some read => read >>= _) = _
      rw [hcase _ (.cons (by decide) t)]
      rfl

/-- The members of a record fill its slots, each with what was written. -/
theorem Fields.fills_write : {α σ : Type} → (fields : Fields α σ) → fields.Lawful → fields.Spelled →
    fields.names.Nodup → ∀ {x : α} {ms : List (String × Bytes)}, fields.write x = some ms →
      ∃ slots, ms.map (·.1) = fields.names ∧ fields.Fills ms fields.noSlots slots ∧
      fields.collect slots = some x
  | _, _, .nil, _, _, _, (), ms, hw => by
    cases hw
    exact ⟨(), rfl, .nil (), rfl⟩
  | _, _, .field name shape default rest, h, h', hnames, (x, xs), ms, hw => by
    rw [Fields.Lawful] at h
    rw [Fields.Spelled] at h'
    rw [Fields.names, List.nodup_cons] at hnames
    rw [Fields.write] at hw
    obtain ⟨text, htext, hw⟩ := Option.bind_eq_some_iff.1 hw
    obtain ⟨more, hmore, hw⟩ := Option.bind_eq_some_iff.1 hw
    cases hw
    obtain ⟨slots, hms, hfills, hcollect⟩ := Fields.fills_write rest h.2 h'.2 hnames.2 hmore
    have hread := Schema.reads_write shape h.1 h'.1 htext
    refine ⟨(some x, slots), by rw [List.map_cons, hms, Fields.names], ?_, ?_⟩
    · refine .cons (fun t ht => ?_)
        (hfills.behind shape default (some x) (by rw [hms]; exact hnames.1))
      rw [Fields.noSlots, Fields.readMember, if_pos rfl]
      show some ((shape.read (text ++ t)) >>= _) = _
      rw [hread.read t ht]
      rfl
    · unfold Fields.collect
      simp only [hcollect]
      rfl

/-- The alternative that holds is found by its name. -/
theorem Cases.names_write : {α : Type} → (cases : Cases α) → cases.Lawful → cases.Spelled →
    cases.names.Nodup → ∀ {x : α} {text : Bytes}, cases.write x = some text →
      ∃ name ∈ cases.names, (text = quote name ∧ cases.bare? name = some x) ∨
        ∃ inner, text = Json.writeObject [(name, inner)] ∧
          ∀ t, EndsNumber t → cases.readCase name (58 :: (inner ++ t)) = some (.ok (x, t))
  | _, .nil, _, _, _, x, text, hw => by cases hw
  | _, .unit name value is rest, h, h', hnames, x, text, hw => by
    rw [Cases.Lawful] at h
    rw [Cases.Spelled] at h'
    rw [Cases.names, List.nodup_cons] at hnames
    rw [Cases.write] at hw
    by_cases hx : is x = true
    · rw [if_pos hx] at hw
      cases hw
      refine ⟨name, List.mem_cons_self, .inl ⟨rfl, ?_⟩⟩
      rw [Cases.bare?, if_pos rfl, h.1 x hx]
    · rw [if_neg hx] at hw
      obtain ⟨name', hname', hrest⟩ := Cases.names_write rest h.2 h' hnames.2 hw
      have hne : name ≠ name' := fun heq => hnames.1 (heq ▸ hname')
      refine ⟨name', List.mem_cons_of_mem _ hname', ?_⟩
      simp only [Cases.bare?, Cases.readCase, if_neg hne]
      exact hrest
  | _, .case name shape make take rest, h, h', hnames, x, text, hw => by
    rw [Cases.Lawful] at h
    rw [Cases.Spelled] at h'
    rw [Cases.names, List.nodup_cons] at hnames
    rw [Cases.write] at hw
    cases hx : take x with
    | some y =>
      simp only [hx, Option.map_eq_some_iff] at hw
      obtain ⟨inner, hinner, rfl⟩ := hw
      have hread := Schema.reads_write shape h.1 h'.1 hinner
      refine ⟨name, List.mem_cons_self, .inr ⟨inner, rfl, fun t ht => ?_⟩⟩
      rw [Cases.readCase, if_pos rfl]
      show some ((shape.read (inner ++ t)) >>= _) = _
      rw [hread.read t ht]
      exact congrArg (fun x => some (Except.ok (x, t))) (h.2.1 x y hx)
    | none =>
      simp only [hx] at hw
      obtain ⟨name', hname', hrest⟩ := Cases.names_write rest h.2.2 h'.2 hnames.2 hw
      have hne : name ≠ name' := fun heq => hnames.1 (heq ▸ hname')
      refine ⟨name', List.mem_cons_of_mem _ hname', ?_⟩
      simp only [Cases.bare?, Cases.readCase, if_neg hne]
      exact hrest

end

/-- A text as a whole is read as what was written. -/
theorem Schema.parse_write {α : Type} {schema : Schema α} (h : schema.Lawful)
    (h' : schema.Spelled) {x : α} {text : Bytes} (hw : schema.write x = some text) :
    schema.parse text = .ok x := by
  have hread := (schema.reads_write h h' hw).read [] .nil
  rw [List.append_nil] at hread
  rw [parse, Json.Reader.whole, hread]
  rfl

/-! ## Printable text -/

namespace Json

theorem printable_writeOctets (bs : Bytes) : Printable (writeOctets bs) := by
  refine printable_writeList fun text htext => ?_
  obtain ⟨b, -, rfl⟩ := List.mem_map.1 htext
  exact printable_decimal b.toNat

theorem printable_writeKey (k : Key) : Printable (writeKey k) := by
  unfold writeKey
  cases k.text? with
  | some s => exact printable_quote s
  | none => exact printable_writeOctets k.bytes

theorem printable_nullText : Printable nullText := .ascii (by decide +kernel)

/-- Whatever a partial function makes of a list has the property that each of its values has. -/
theorem printable_of_mapM {α : Type} {f : α → Option Bytes} {xs : List α} {texts : List Bytes}
    (h : xs.mapM f = some texts) (hf : ∀ {x text}, f x = some text → Printable text) :
    ∀ text ∈ texts, Printable text := by
  have hall := forall₂_of_mapM h
  clear h
  induction hall with
  | nil => exact fun text htext => nomatch htext
  | cons hx _ ih => exact List.forall_mem_cons.2 ⟨hf hx, ih⟩

end Json

mutual

/-- **JSON text is one line**: no control character is written, whatever the message holds. -/
theorem Schema.printable_write : {α : Type} → (schema : Schema α) → ∀ {x : α} {text : Bytes},
    schema.write x = some text → Json.Printable text
  | _, .text, s, text, hw => by
    cases hw
    exact Json.printable_quote s
  | _, .octets, bs, text, hw => by
    cases hw
    exact Json.printable_writeOctets bs
  | _, .key, k, text, hw => by
    cases hw
    exact Json.printable_writeKey k
  | _, .word32, n, text, hw => by
    cases hw
    exact Json.printable_decimal n.toNat
  | _, .word64, n, text, hw => by
    cases hw
    exact Json.printable_decimal n.toNat
  | _, .option item, none, text, hw => by
    cases hw
    exact Json.printable_nullText
  | _, .option item, some x, text, hw => by
    rw [Schema.write] at hw
    exact Schema.printable_write item hw
  | _, .list item, xs, text, hw => by
    rw [Schema.write, Option.map_eq_some_iff] at hw
    obtain ⟨texts, htexts, rfl⟩ := hw
    exact Json.printable_writeList (Json.printable_of_mapM htexts (Schema.printable_write item))
  | _, .pair first second, (x, y), text, hw => by
    rw [Schema.write] at hw
    obtain ⟨text₁, hfirst, hw⟩ := Option.bind_eq_some_iff.1 hw
    obtain ⟨text₂, hsecond, hw⟩ := Option.bind_eq_some_iff.1 hw
    cases hw
    refine Json.printable_writeList
      (List.forall_mem_cons.2 ⟨Schema.printable_write first hfirst, ?_⟩)
    exact List.forall_mem_singleton.2 (Schema.printable_write second hsecond)
  | _, @Schema.set _ _ _ item, s, text, hw => by
    rw [Schema.write, Option.map_eq_some_iff] at hw
    obtain ⟨texts, htexts, rfl⟩ := hw
    exact Json.printable_writeList (Json.printable_of_mapM htexts (Schema.printable_write item))
  | _, @Schema.map _ _ _ _ name? ofName keys value, m, text, hw => by
    rw [Schema.write, Option.map_eq_some_iff] at hw
    obtain ⟨ws, hws, rfl⟩ := hw
    refine Json.printable_writeObject ?_
    have hall := forall₂_of_mapM hws
    clear hws
    generalize m.entries = es at hall
    induction hall with
    | nil => exact fun w hw => nomatch hw
    | cons he _ ih =>
      obtain ⟨name, -, he⟩ := Option.bind_eq_some_iff.1 he
      obtain ⟨text, htext, he⟩ := Option.bind_eq_some_iff.1 he
      cases he
      exact List.forall_mem_cons.2 ⟨Schema.printable_write value htext, ih⟩
  | _, .refine inner _ _, x, text, hw => by
    rw [Schema.write] at hw
    exact Schema.printable_write inner hw
  | _, .record fields _ _, x, text, hw => by
    rw [Schema.write, Option.map_eq_some_iff] at hw
    obtain ⟨ms, hms, rfl⟩ := hw
    exact Json.printable_writeObject (Fields.printable_write fields hms)
  | _, .choice cases, x, text, hw => by
    rw [Schema.write] at hw
    exact Cases.printable_write cases hw

theorem Fields.printable_write :
    {α σ : Type} → (fields : Fields α σ) → ∀ {x : α} {ms : List (String × Bytes)},
    fields.write x = some ms → ∀ m ∈ ms, Json.Printable m.2
  | _, _, .nil, (), ms, hw => by
    cases hw
    exact fun m hm => nomatch hm
  | _, _, .field name shape _ rest, (x, xs), ms, hw => by
    rw [Fields.write] at hw
    obtain ⟨text, htext, hw⟩ := Option.bind_eq_some_iff.1 hw
    obtain ⟨more, hmore, hw⟩ := Option.bind_eq_some_iff.1 hw
    cases hw
    exact List.forall_mem_cons.2
      ⟨Schema.printable_write shape htext, Fields.printable_write rest hmore⟩

theorem Cases.printable_write : {α : Type} → (cases : Cases α) → ∀ {x : α} {text : Bytes},
    cases.write x = some text → Json.Printable text
  | _, .nil, x, text, hw => by cases hw
  | _, .unit name _ is rest, x, text, hw => by
    rw [Cases.write] at hw
    by_cases hx : is x = true
    · rw [if_pos hx] at hw
      cases hw
      exact Json.printable_quote name
    · rw [if_neg hx] at hw
      exact Cases.printable_write rest hw
  | _, .case name shape _ take rest, x, text, hw => by
    rw [Cases.write] at hw
    cases hx : take x with
    | some y =>
      simp only [hx, Option.map_eq_some_iff] at hw
      obtain ⟨inner, hinner, rfl⟩ := hw
      exact Json.printable_writeObject
        (List.forall_mem_singleton.2 (Schema.printable_write shape hinner))
    | none =>
      simp only [hx] at hw
      exact Cases.printable_write rest hw

end

end BucketCluster
