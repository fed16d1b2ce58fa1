import BucketCluster.Proofs.Message

/-!
# Messages that were cut off

A decoder never looks past the message it reads: bytes added at the end change
nothing, unless it had run out of bytes before they came (`Incremental`).  All
decoders of the binary format are of this kind, lawful or not, and so a message of
which the end is missing is refused as truncated and never taken for another one
(`decode_of_prefix`).  For what nodes send each other, `messages_delimited` says both:
a command or reply is read back whatever follows it, and no part of it is read.
-/

namespace BucketCluster

namespace Wire

/-! ## Decoders that read from the front -/

/-- Either the bytes were not enough, or more of them are left as they are. -/
def Incremental {α : Type} (read : Decoder α) : Prop :=
  ∀ bs t, read bs = .error .truncated ∨ read (bs ++ t) = (read bs).map fun (x, rest) =>
    (x, rest ++ t)

namespace Incremental

variable {α β : Type}

theorem ok (x : α) : Incremental fun bs => .ok (x, bs) := fun _ _ => .inr rfl

theorem error (e : Fault) : Incremental fun _ => (.error e : Except Fault (α × Bytes)) :=
  fun _ _ => .inr rfl

/-- One decoder after the other, the second chosen by what the first has read. -/
theorem bind {read : Decoder α} {next : α → Decoder β} (h : Incremental read)
    (hnext : ∀ x, Incremental (next x)) :
    Incremental fun bs => read bs >>= fun (x, rest) => next x rest := by
  intro bs t
  rcases h bs t with hshort | hmore
  · left
    show read bs >>= _ = _
    rw [hshort]
    rfl
  · show (read bs >>= _) = _ ∨ (read (bs ++ t) >>= _) = _
    rw [hmore]
    show (read bs >>= _) = _ ∨ _ = (read bs >>= _).map _
    cases read bs with
    | error e => exact .inr rfl
    | ok p => exact hnext p.1 p.2 t

theorem map {read : Decoder α} (h : Incremental read) (f : α → β) :
    Incremental fun bs => (read bs).map fun (x, rest) => (f x, rest) := by
  intro bs t
  rcases h bs t with hshort | hmore
  · left
    show (read bs).map _ = _
    rw [hshort]
    rfl
  · right
    show (read (bs ++ t)).map _ = ((read bs).map _).map _
    rw [hmore]
    cases read bs <;> rfl

theorem check (x? : Option α) (e : Fault) :
    Incremental fun bs =>
      match x? with
      | some x => .ok (x, bs)
      | none => .error e := by
  cases x? with
  | none => exact error e
  | some x => exact ok x

end Incremental

theorem incremental_splitAt (n : Nat) : Incremental (splitAt n) := by
  intro bs t
  unfold splitAt
  by_cases h : bs.length < n
  · left
    rw [if_pos h]
  · right
    have hn : n ≤ bs.length := by omega
    have hmore : ¬(bs ++ t).length < n := by rw [List.length_append]; omega
    rw [if_neg h, if_neg hmore, List.take_append_of_le_length hn, List.drop_append_of_le_length hn]
    rfl

theorem incremental_word (width : Nat) : Incremental (word width) :=
  (incremental_splitAt width).map Bytes.ofLittleEndian

theorem incremental_sized : Incremental sized := (incremental_word 8).bind incremental_splitAt

theorem incremental_times {α : Type} {item : Decoder α} (h : Incremental item) (n : Nat) :
    Incremental (times item n) := by
  induction n with
  | zero => exact .ok []
  | succ n ih => exact h.bind fun x => ih.map (x :: ·)

theorem incremental_many {α : Type} {item : Decoder α} (h : Incremental item) :
    Incremental (many item) :=
  (incremental_word 8).bind (incremental_times h)

end Wire

/-! ## Schemas -/

open Wire

mutual

/-- **No decoder looks ahead.**  The induction is on the schema, with no law asked of it. -/
theorem Schema.incremental_decode : {α : Type} → (schema : Schema α) → Incremental schema.decode
  | _, .text => by
    have hnext (raw : Bytes) : Incremental fun rest =>
        match Utf8.decode? raw with
        | some s => .ok (s, rest)
        | none => .error .invalidText := by
      cases Utf8.decode? raw with
      | none => exact .error .invalidText
      | some s => exact .ok s
    have hread := incremental_sized.bind hnext
    exact hread
  | _, .octets => incremental_sized
  | _, .key => incremental_sized.map Key.mk
  | _, .word32 => (incremental_word 4).map UInt32.ofNat
  | _, .word64 => (incremental_word 8).map UInt64.ofNat
  | _, .option item => by
    intro bs t
    unfold Schema.decode
    match bs with
    | [] => exact .inl rfl
    | tag :: bs =>
      by_cases h0 : tag = 0
      · right
        simp only [List.cons_append, if_pos h0]
        rfl
      by_cases h1 : tag = 1
      · simp only [List.cons_append, if_neg h0, if_pos h1]
        exact (Schema.incremental_decode item).map some bs t
      · right
        simp only [List.cons_append, if_neg h0, if_neg h1]
        rfl
  | _, .list item => incremental_many (Schema.incremental_decode item)
  | _, .pair first second =>
    (Schema.incremental_decode first).bind fun x => (Schema.incremental_decode second).map (x, ·)
  | _, @Schema.set _ _ _ item =>
    (incremental_many (Schema.incremental_decode item)).map SortedSet.ofElements
  | _, @Schema.map _ _ _ _ _ _ keys values => by
    refine Incremental.map (incremental_many ?_) SortedMap.ofList
    exact (Schema.incremental_decode keys).bind fun k =>
      (Schema.incremental_decode values).map (k, ·)
  | _, .refine inner make _ => (Schema.incremental_decode inner).bind fun y =>
    .check (make y) .refused
  | _, .record fields make _ => (Fields.incremental_decode fields).map make
  | _, .choice cases => (incremental_word 4).bind (Cases.incremental_decode cases)

theorem Fields.incremental_decode : {α σ : Type} → (fields : Fields α σ) → Incremental fields.decode
  | _, _, .nil => .ok ()
  | _, _, .field _ shape _ rest =>
    (Schema.incremental_decode shape).bind fun x => (Fields.incremental_decode rest).map (x, ·)

theorem Cases.incremental_decode :
    {α : Type} → (cases : Cases α) → (n : Nat) → Incremental (cases.decode n)
  | _, .nil, _ => .error .refused
  | _, .unit _ value _ _, 0 => .ok value
  | _, .unit _ _ _ rest, n + 1 => Cases.incremental_decode rest n
  | _, .case _ shape make _ _, 0 => (Schema.incremental_decode shape).map make
  | _, .case _ _ _ _ rest, n + 1 => Cases.incremental_decode rest n

end

/-! ## Cut-off messages -/

namespace Schema

variable {α : Type} {schema : Schema α}

/-- The message is at the front, whatever comes after it. -/
theorem decodeFront_encode_append (h : schema.Lawful) {x : α} (hfits : schema.Fits x) (t : Bytes) :
    schema.decodeFront (schema.encode x ++ t) = .ok x := by
  rw [decodeFront, schema.decode_encode h x t hfits]
  rfl

/-- **A part is no message.**  If the decoder had made something of the part, or refused it
for another reason, it would do the same with the whole and leave the bytes that were
missing. -/
theorem decode_of_prefix (h : schema.Lawful) {x : α} (hfits : schema.Fits x) {front : Bytes}
    (hfront : front <+: schema.encode x) (hne : front ≠ schema.encode x) :
    schema.decode front = .error .truncated := by
  obtain ⟨t, ht⟩ := hfront
  rcases schema.incremental_decode front t with hshort | hmore
  · exact hshort
  · have hwhole := schema.decode_encode h x [] hfits
    rw [List.append_nil, ← ht, hmore] at hwhole
    cases hr : schema.decode front with
    | error e =>
      rw [hr] at hwhole
      cases hwhole
    | ok p =>
      rw [hr] at hwhole
      have hrest : p.2 ++ t = [] := congrArg Prod.snd (Except.ok.inj hwhole)
      have htnil : t = [] := (List.append_eq_nil_iff.1 hrest).2
      rw [htnil, List.append_nil] at ht
      exact absurd ht hne

theorem decodeFront_of_prefix (h : schema.Lawful) {x : α} (hfits : schema.Fits x) {front : Bytes}
    (hfront : front <+: schema.encode x) (hne : front ≠ schema.encode x) :
    schema.decodeFront front = .error .truncated := by
  rw [decodeFront, decode_of_prefix h hfits hfront hne]
  rfl

end Schema

/-- **Messages end where they end.**  A command and a reply are read back off the front of
any bytes that begin with them, and no proper part of their bytes is read as anything. -/
theorem messages_delimited (c : Command) (r : Reply) (hc : Command.schema.Fits c)
    (hr : Reply.schema.Fits r) :
    (∀ t, Command.schema.decodeFront (Command.schema.encode c ++ t) = .ok c) ∧
    (∀ t, Reply.schema.decodeFront (Reply.schema.encode r ++ t) = .ok r) ∧
    (∀ front, front <+: Command.schema.encode c → front ≠ Command.schema.encode c →
      Command.schema.decodeFront front = .error .truncated) ∧
    (∀ front, front <+: Reply.schema.encode r → front ≠ Reply.schema.encode r →
      Reply.schema.decodeFront front = .error .truncated) := by
  refine ⟨fun t => ?_, fun t => ?_, fun front hfront hne => ?_, fun front hfront hne => ?_⟩
  · exact Schema.decodeFront_encode_append Command.schema_lawful hc t
  · exact Schema.decodeFront_encode_append Reply.schema_lawful hr t
  · exact Schema.decodeFront_of_prefix Command.schema_lawful hc hfront hne
  · exact Schema.decodeFront_of_prefix Reply.schema_lawful hr hfront hne

/-- A put under a key that is no text, and a listing with an empty document. -/
theorem messages_delimited_put :
    let c : Command := ⟨"7", .putValue "a" ⟨[0, 255]⟩ ⟨[34, 10]⟩ (some ⟨"starts_with", "é"⟩)⟩
    let r : Reply := .ok (.entries [(⟨[255]⟩, ⟨[]⟩), (⟨[]⟩, ⟨[1]⟩)])
    (∀ t, Command.schema.decodeFront (Command.schema.encode c ++ t) = .ok c) ∧
    (∀ t, Reply.schema.decodeFront (Reply.schema.encode r ++ t) = .ok r) ∧
    Command.schema.decodeFront ((Command.schema.encode c).take 40) = .error .truncated ∧
    Reply.schema.decodeFront ((Reply.schema.encode r).take 17) = .error .truncated := by
  intro c r
  have h := messages_delimited c r (by decide +kernel) (by decide +kernel)
  obtain ⟨hc, hr, hcutc, hcutr⟩ := h
  refine ⟨hc, hr, hcutc _ (List.take_prefix _ _) ?_, hcutr _ (List.take_prefix _ _) ?_⟩
  · decide +kernel
  · decide +kernel

end BucketCluster
