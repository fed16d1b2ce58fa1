import BucketCluster.Proofs.Coordination.Plans
import BucketCluster.Proofs.Coordination.RangeQuery
import BucketCluster.Proofs.Network.Requests
import BucketCluster.Proofs.Operators
import BucketCluster.Proofs.SortedMap
import BucketCluster.Proofs.Store.Selection
import Mathlib.Data.List.Nodup
import Mathlib.Data.List.Perm.Basic

/-!
# Who answers first

Answers that share no key are merged into the same whatever the order in which they
come: maps and sets always (`Merge.answer_perm`), sorted entries as long as the
comparator ties no two of the keys.  `fanOut_answer` says this of the commands that
ask several nodes.  Ties make a difference: the entries are sorted in the order in
which they came, and a limit drops what came later (`fanOut_answer_of_ties`).
-/

namespace BucketCluster

/-! ## Sorting -/

namespace KeyRange

/-- Entries with different keys have one order only under a comparator that separates the keys. -/
theorem sortEntries_eq_of_perm {order : Comparator} {es es' : List (Key × Document)}
    (hp : es.Perm es') (hkeys : (es.map (·.1)).Nodup) (h : order.Separates (es.map (·.1))) :
    sortEntries order es = sortEntries order es' := by
  obtain ⟨total, htotal, hagree, hties⟩ := h
  have hmem {e : Key × Document} (he : e ∈ es) : e.1 ∈ es.map (·.1) := List.mem_map_of_mem he
  -- on these entries sorting cannot tell the comparator from the total order
  have hsort {l : List (Key × Document)} (hl : ∀ e ∈ l, e ∈ es) : sortEntries order l =
      sortEntries total l := by
    have hmap :=
      List.map_mergeSort (r := fun a b => (order a.1 b.1).isLE)
        (s := fun a b => (total a.1 b.1).isLE)
      (f := id) (l := l) fun a ha b hb => by rw [hagree _ (hmem (hl a ha)) _ (hmem (hl b hb))]; rfl
    rwa [List.map_id, List.map_id] at hmap
  rw [hsort fun _ he => he, hsort fun _ he => hp.mem_iff.2 he]
  have hperm := (sortEntries_perm total es).trans (hp.trans (sortEntries_perm total es').symm)
  refine hperm.eq_of_pairwise ?_ (sortEntries_sorted total es) (sortEntries_sorted total es')
  intro a b ha hb hab hba
  have ha' : a ∈ es := (sortEntries_perm total es).mem_iff.1 ha
  have hb' : b ∈ es := hp.mem_iff.2 ((sortEntries_perm total es').mem_iff.1 hb)
  have hkey : a.1 = b.1 := hties _ (hmem ha') _ (hmem hb') (Std.OrientedCmp.isLE_antisymm hab hba)
  exact List.inj_on_of_nodup_map hkeys ha' hb' hkey

end KeyRange

/-! ## Merging -/

/-- The keys that an answer speaks of. -/
def Answer.listedKeys : Answer → List Key
  | .values vs => vs.entries.map (·.1)
  | .entries es => es.map (·.1)
  | .keys ks => ks.entries.map (·.1)
  | _ => []

/-- The order of answers that speak of these keys makes no difference. -/
def Merge.Commutes : Merge → List Key → Prop
  | .only, _ => False
  | .values, _ => True
  | .keys, _ => True
  | .entries order _, ks => order.Separates ks
  | .done, _ => True

/-- How answers of one form are told from all others. -/
structure Reads {α : Type} (wrap : α → Answer) (read : Answer → Except ProcessingError α)
    (e : ProcessingError) : Prop where
  wrapped (x : α) : read (wrap x) = .ok x
  refused (a : Answer) : (∃ x, a = wrap x) ∨ read a = .error e

theorem reads_values : Reads .values Answer.asValues (.unexpectedResult "values") where
  wrapped _ := rfl
  refused a := by cases a <;> first | exact .inl ⟨_, rfl⟩ | exact .inr rfl

theorem reads_keys : Reads .keys Answer.asKeys (.unexpectedResult "keys") where
  wrapped _ := rfl
  refused a := by cases a <;> first | exact .inl ⟨_, rfl⟩ | exact .inr rfl

theorem reads_entries : Reads .entries Answer.asEntries (.unexpectedResult "entries") where
  wrapped _ := rfl
  refused a := by cases a <;> first | exact .inl ⟨_, rfl⟩ | exact .inr rfl

namespace Reads

variable {α β : Type} {wrap : α → Answer} {read : Answer → Except ProcessingError α}
    {e : ProcessingError}

/-- All answers are read, or all of them together are refused. -/
theorem mapM_or (h : Reads wrap read e) (as : List Answer) :
    (∃ xs : List α, as = xs.map wrap) ∨ as.mapM read = .error e := by
  induction as with
  | nil => exact .inl ⟨[], rfl⟩
  | cons a as ih =>
    rcases h.refused a with ⟨x, rfl⟩ | ha
    · rcases ih with ⟨xs, rfl⟩ | has
      · exact .inl ⟨x :: xs, rfl⟩
      · right
        rw [List.mapM_cons, h.wrapped, has]
        rfl
    · right
      rw [List.mapM_cons, ha]
      rfl

/-- What is made of the parts without regard to their order does not depend on the order of
the answers. -/
theorem mapM_perm (h : Reads wrap read e) (f : List α → β) {as bs : List Answer} (hp : as.Perm bs)
    (hf : ∀ xs ys : List α, as = xs.map wrap → xs.Perm ys → f xs = f ys) :
    (as.mapM read >>= fun parts => .ok (f parts)) =
      bs.mapM read >>= fun parts => .ok (f parts) := by
  rcases h.mapM_or bs with ⟨ys, rfl⟩ | hbs
  · obtain ⟨xs, hxs, hperm⟩ := exists_map_of_perm hp
    have hparts := hf xs ys hxs hperm
    rw [hxs, mapM_map_ok wrap read h.wrapped, mapM_map_ok wrap read h.wrapped]
    exact congrArg Except.ok hparts
  · rcases h.mapM_or as with ⟨xs, rfl⟩ | has
    · obtain ⟨ys, rfl, -⟩ := exists_map_of_perm hp.symm
      rw [mapM_map_ok wrap read h.wrapped] at hbs
      cases hbs
    · rw [has, hbs]

end Reads

/-- Maps and sets that share no key are joined into the same, whichever comes first. -/
theorem ofList_flatMap_perm {ν : Type} {ms ns : List (SortedMap Key ν)} (hp : ms.Perm ns)
    (hkeys : ((ms.flatMap SortedMap.entries).map (·.1)).Nodup) :
    SortedMap.ofList (ms.flatMap SortedMap.entries) =
      SortedMap.ofList (ns.flatMap SortedMap.entries) :=
  SortedMap.ofList_perm hkeys (hp.flatMap_right _)

/-- **Merging does not look at the order.** -/
theorem Merge.answer_perm {m : Merge} {as bs : List Answer} (hp : as.Perm bs)
    (hkeys : (as.flatMap Answer.listedKeys).Nodup)
    (hm : m.Commutes (as.flatMap Answer.listedKeys)) :
    m.answer as = m.answer bs := by
  cases m with
  | only => exact hm.elim
  | done => rfl
  | values =>
    refine reads_values.mapM_perm
      (fun parts => Answer.values (.ofList (parts.flatMap SortedMap.entries))) hp ?_
    rintro xs ys rfl hperm
    rw [List.flatMap_map] at hkeys
    rw [ofList_flatMap_perm hperm (by rwa [List.map_flatMap])]
  | keys =>
    refine reads_keys.mapM_perm
      (fun parts => Answer.keys (.ofList (parts.flatMap SortedMap.entries))) hp ?_
    rintro xs ys rfl hperm
    rw [List.flatMap_map] at hkeys
    rw [ofList_flatMap_perm hperm (by rwa [List.map_flatMap])]
  | entries order range =>
    refine reads_entries.mapM_perm
      (fun parts => Answer.entries (range.truncate (KeyRange.sortEntries order parts.flatten)))
      hp ?_
    rintro xs ys rfl hperm
    have hlisted : (xs.map Answer.entries).flatMap Answer.listedKeys = xs.flatten.map (·.1) := by
      rw [List.flatMap_map, List.map_flatten, ← List.flatMap_def]
      rfl
    rw [hlisted] at hkeys hm
    rw [KeyRange.sortEntries_eq_of_perm hperm.flatten hkeys hm]

/-- Of two entries that tie, the one that came first is the first of both. -/
theorem Merge.entries_of_tie {order : Comparator} {range : KeyRange} {a b : Key × Document}
    (hlimit : range.limit = 1) (htie : order a.1 b.1 = .eq) :
    (Merge.entries order range).answer [.entries [a], .entries [b]] = .ok (.entries [a]) := by
  have hsorted : [a, b].Pairwise fun a b => (order a.1 b.1).isLE = true := by simp [htie]
  have hsort : KeyRange.sortEntries order [a, b] = [a, b] := List.mergeSort_of_pairwise hsorted
  have htop : range.truncate [a, b] = [a] := by simp [KeyRange.truncate, hlimit]
  show Except.ok (Answer.entries (range.truncate (KeyRange.sortEntries order [a, b]))) = _
  rw [hsort, htop]

/-! ## Any order of replies -/

/-- The keys that the first `n` answers list. -/
def listed (answer : Nat → Answer) (n : Nat) : List Key :=
  (List.range n).flatMap fun i => (answer i).listedKeys

/-- Whatever the order in which the nodes answer, a request has the answer that it has in
the order of its sends. -/
theorem Request.answer_complete_perm {p : Plan} {answer : Nat → Answer}
    (hkeys : (listed answer p.sends.length).Nodup)
    (hm : p.merge.Commutes (listed answer p.sends.length))
    {js : List Nat} (hjs : js.Perm (List.range p.sends.length)) :
    ((ofPlan (.ok p)).complete (js.map fun j => (j, .answered (answer j)))).answer =
      some ((p.merge.answer ((List.range p.sends.length).map answer)).mapError .processing) := by
  have hlisted : ((List.range p.sends.length).map answer).flatMap Answer.listedKeys =
      listed answer p.sends.length := by
    rw [List.flatMap_map]
    rfl
  rw [← hlisted] at hkeys hm
  rw [answer_complete p hjs, Merge.answer_perm (hjs.symm.map answer) hkeys hm]

/-- The commands that several nodes answer together, with the comparators that every node knows. -/
def Operation.FansOut : Operation → Prop
  | .getValues .. => True
  | .getKeys _ => True
  | .predicateQuery .. => True
  | .rangeQuery _ range _ => range.comparatorName = "lexical" ∨ range.comparatorName = "numeric"
  | _ => False

/-- Of the keys that a command has listed no two different ones are the same number to it. -/
def Operation.TiesNone (ks : List Key) : Operation → Prop
  | .rangeQuery _ range _ =>
    range.comparatorName = "numeric" → ∀ a ∈ ks, ∀ b ∈ ks, Operators.numericOrder a b = .eq → a = b
  | _ => True

theorem Router.plan_commutes {r : Router} {c : Command} {p : Plan} {ks : List Key}
    (hlexical : r.operators.comparator "lexical" = .ok Operators.lexicalOrder)
    (hnumeric : r.operators.comparator "numeric" = .ok Operators.numericOrder)
    (hc : c.operation.FansOut) (hties : c.operation.TiesNone ks) (hp : r.plan c = .ok p) :
    p.merge.Commutes ks := by
  obtain ⟨id, op⟩ := c
  obtain ⟨f, -, hp⟩ := of_bind_ok hp
  cases op with
  | getValues b ks' pred =>
    obtain ⟨shares, -, hp⟩ := of_bind_ok hp
    cases hp
    trivial
  | getKeys b =>
    obtain ⟨ns, -, rfl⟩ := of_toAll hp
    trivial
  | predicateQuery b pred =>
    obtain ⟨ns, -, rfl⟩ := of_toAll hp
    trivial
  | rangeQuery b range pred =>
    obtain ⟨order, horder, hp⟩ := of_bind_ok hp
    obtain ⟨ns, -, rfl⟩ := of_toAll hp
    rcases hc with hname | hname
    · rw [hname, hlexical] at horder
      cases horder
      exact Operators.lexicalOrder_separates ks
    · rw [hname, hnumeric] at horder
      cases horder
      exact Operators.numericOrder_separates (hties hname)
  | _ => exact hc.elim

/-- **Who replies first makes no difference.**  The nodes to which the parts of a command
have gone list no key twice, and of the keys they list no two are the same number where
numbers are compared. -/
theorem fanOut_answer {r : Router} {c : Command} {p : Plan} {answer : Nat → Answer}
    (hlexical : r.operators.comparator "lexical" = .ok Operators.lexicalOrder)
    (hnumeric : r.operators.comparator "numeric" = .ok Operators.numericOrder)
    (hc : c.operation.FansOut) (hp : r.plan c = .ok p)
    (hkeys : (listed answer p.sends.length).Nodup)
    (hties : c.operation.TiesNone (listed answer p.sends.length)) :
    ∃ result, ∀ js : List Nat, js.Perm (List.range p.sends.length) →
      ((Request.ofPlan (.ok p)).complete (js.map fun j => (j, .answered (answer j)))).answer =
        some result :=
  ⟨_, fun _ hjs => Request.answer_complete_perm hkeys
    (Router.plan_commutes hlexical hnumeric hc hties hp) hjs⟩

/-! ## Two nodes and numbers -/

/-- The router of `c` with its two nodes, in which every name of an operator is built in. -/
def numberRouter : Router := { lengthRouter with operators := .builtin }

/-- The first of all entries, by number. -/
def numberQuery : Command := ⟨"1", .rangeQuery "b" ⟨⟨[48]⟩, none, 1, some "numeric"⟩ none⟩

/-- One node has the key `1`, the other one the key given. -/
def numberAnswer (k : Key) : Nat → Answer
  | 0 => .entries [(⟨[49]⟩, ⟨[120]⟩)]
  | _ => .entries [(k, ⟨[121]⟩)]

/-- The keys `1` and `2` are different numbers. -/
theorem fanOut_answer_numbers : ∃ p, numberRouter.plan numberQuery = .ok p ∧
    ∃ result, ∀ js : List Nat, js.Perm (List.range p.sends.length) →
      ((Request.ofPlan (.ok p)).complete
        (js.map fun j => (j, .answered (numberAnswer ⟨[50]⟩ j)))).answer = some result := by
  refine ⟨_, rfl, fanOut_answer (r := numberRouter)
    (c := numberQuery) rfl rfl (.inr rfl) rfl (by decide) ?_⟩
  intro _
  decide +kernel

/-- The keys `1` and `1.0` tie: whichever comes first is the answer. -/
theorem fanOut_answer_of_ties : ∃ p, numberRouter.plan numberQuery = .ok p ∧
    (listed (numberAnswer ⟨[49, 46, 48]⟩) p.sends.length).Nodup ∧
    ((Request.ofPlan (.ok p)).complete
      ([0, 1].map fun j => (j, .answered (numberAnswer ⟨[49, 46, 48]⟩ j)))).answer =
        some (.ok (.entries [(⟨[49]⟩, ⟨[120]⟩)])) ∧
    ((Request.ofPlan (.ok p)).complete
      ([1, 0].map fun j => (j, .answered (numberAnswer ⟨[49, 46, 48]⟩ j)))).answer =
        some (.ok (.entries [(⟨[49, 46, 48]⟩, ⟨[121]⟩)])) := by
  obtain ⟨p, hp, hlen, hmerge⟩ : ∃ p, numberRouter.plan numberQuery = .ok p ∧ p.sends.length = 2 ∧
    p.merge = .entries Operators.numericOrder ⟨⟨[48]⟩, none, 1, some "numeric"⟩ :=
      ⟨_, rfl, rfl, rfl⟩
  have hforth : [0, 1].Perm (List.range p.sends.length) := by
    rw [hlen]
    decide
  have hback : [1, 0].Perm (List.range p.sends.length) := by
    rw [hlen]
    decide
  refine ⟨p, hp, by rw [hlen]; decide, ?_, ?_⟩
  · rw [Request.answer_complete p hforth, hmerge]
    exact congrArg (fun r => some (Except.mapError .processing r))
      (Merge.entries_of_tie rfl (by decide +kernel))
  · rw [Request.answer_complete p hback, hmerge]
    exact congrArg (fun r => some (Except.mapError .processing r))
      (Merge.entries_of_tie rfl (by decide +kernel))

end BucketCluster
