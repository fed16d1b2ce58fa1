import BucketCluster.Proofs.Network.Requests
import BucketCluster.Proofs.SortedMap
import BucketCluster.Proofs.Store.Selection
import BucketCluster.Store.Apply
import Mathlib.Data.List.Perm.Basic

/-!
# Range queries over several nodes

Every node of a cluster filters, sorts and cuts off its own entries, and the
coordinator sorts and cuts off what comes back.  `rangeQuery_gives_top` says that
this is as good as doing it once with all entries in one place, whatever the
comparator ties, however the entries are spread over the nodes, in whatever order
each node reads them, and in whatever order the nodes answer.
-/

namespace BucketCluster

variable {range : KeyRange} {order : Comparator} {f : Filter}

namespace KeyRange

/-! ## What a range query asks for -/

/-- The entry lies in the range, and the filter keeps it. -/
def qualifies (range : KeyRange) (order : Comparator) (f : Filter) (e : Key × Document) : Bool :=
  range.includes order e.1 && f.keeps e.1 e.2

/-- The answer to a range query over the entries `all`: the first of those that qualify. -/
structure Top (range : KeyRange) (order : Comparator) (f : Filter)
    (all es : List (Key × Document)) : Prop where
  sorted : es.Pairwise fun a b => (order a.1 b.1).isLE
  distinct : (es.map (·.1)).Nodup
  stored : ∀ e ∈ es, e ∈ all ∧ (order range.start e.1).isLE ∧
    (∀ stop, range.stop = some stop → (order e.1 stop).isLE) ∧ f.keeps e.1 e.2 = true
  count : es.length = if range.limit = 0 then (all.filter (range.qualifies order f)).length
    else min range.limit.toNat (all.filter (range.qualifies order f)).length
  /-- Whatever qualifies and is left out does not come before any entry of the answer. -/
  least : ∀ e ∈ all, range.qualifies order f e = true → e ∉ es → ∀ a ∈ es, (order a.1 e.1).isLE

theorem qualifies_iff {e : Key × Document} :
    range.qualifies order f e = true ↔ (order range.start e.1).isLE ∧
    (∀ stop, range.stop = some stop → (order e.1 stop).isLE) ∧ f.keeps e.1 e.2 = true := by
  unfold qualifies includes
  cases range.stop with
  | none => simp
  | some stop => simp [and_assoc]

/-- The top of a selection is an answer. -/
theorem Selection.isTop {all es rest : List (Key × Document)} (hkeys : (all.map (·.1)).Nodup)
    (h : Selection range order (all.filter (range.qualifies order f)) es rest) :
    Top range order f all es := by
  have hmem : ∀ e, e ∈ es ++ rest ↔ e ∈ all ∧ range.qualifies order f e = true := by
    intro e
    rw [← h.perm.mem_iff, List.mem_filter]
  refine ⟨h.sorted, ?_, ?_, h.length_top, ?_⟩
  · have hsub : ((all.filter (range.qualifies order f)).map (·.1)).Nodup :=
      hkeys.sublist (List.filter_sublist.map _)
    rw [(h.perm.map _).nodup_iff, List.map_append] at hsub
    exact (List.nodup_append.1 hsub).1
  · intro e he
    obtain ⟨hall, hq⟩ := (hmem e).1 (List.mem_append_left _ he)
    exact ⟨hall, qualifies_iff.1 hq⟩
  · intro e he hq hout a ha
    rcases List.mem_append.1 ((hmem e).2 ⟨he, hq⟩) with hin | hrest
    · exact absurd hin hout
    · exact h.least a ha e hrest

end KeyRange

/-! ## What a node replies -/

namespace Store

/-- What a node may reply to a range query whose operators it knows: it reads the bucket in any
order. -/
def RangeReply (s : Store) (bucket : String) (range : KeyRange) (p : Option Predicate)
    (reply : Reply) : Prop :=
  ∃ order f snapshot, s.operators.comparator range.comparatorName = .ok order ∧
    s.operators.filter p = .ok f ∧ snapshot.Perm (s.contents bucket).entries ∧
    reply = .ok (.entries (range.select order f snapshot))

/-- What a node does reply reads the bucket in key order. -/
theorem rangeReply_handle {s : Store} {id bucket : String} {p : Option Predicate}
    (horder : s.operators.comparator range.comparatorName = .ok order)
    (hf : s.operators.filter p = .ok f)
    (hc : s.crashes (.rangeQuery bucket range p) = false) :
    s.RangeReply bucket range p (s.handle ⟨id, .rangeQuery bucket range p⟩).1 := by
  refine ⟨order, f, (s.contents bucket).entries, horder, hf, .rfl, ?_⟩
  have hcheck : s.checkOperators (.rangeQuery bucket range p) = .ok () := by
    simp only [checkOperators, Operation.predicate?, hf, horder]
    rfl
  have hrange : s.range bucket range p =
      .ok (range.select order f (s.contents bucket).entries) := by
    simp only [Store.range, hf, horder]
    rfl
  simp only [handle, hc, apply, hcheck, perform, reading, hrange]
  rfl

end Store

/-! ## What the coordinator answers -/

/-- All entries of a bucket, node by node. -/
def allEntries (stores : Nat → Store) (nodes : Nat) (bucket : String) : List (Key × Document) :=
  (List.range nodes).flatMap fun i => ((stores i).contents bucket).entries

/-- Nodes of which no two hold the same key hold no key twice. -/
theorem allEntries_nodup {stores : Nat → Store} {nodes : Nat} {bucket : String}
    (hdisjoint : ∀ i j k, i < nodes → j < nodes → ((stores i).contents bucket).contains k = true →
      ((stores j).contents bucket).contains k = true → i = j) :
    ((allEntries stores nodes bucket).map (·.1)).Nodup := by
  refine SortedMap.keys_flatMap_nodup (List.pairwise_lt_range.imp_of_mem ?_)
  intro i j hi hj hlt k hk
  cases hk' : ((stores j).contents bucket).contains k with
  | false => rfl
  | true =>
    have := hdisjoint i j k (List.mem_range.1 hi) (List.mem_range.1 hj) hk hk'
    omega

/-- What the nodes listed send, having read their entries in the orders given. -/
theorem selections_select {ι : Type} (range : KeyRange) (order : Comparator) [Std.TransCmp order]
    (f : Filter) (snapshots : ι → List (Key × Document)) (js : List ι) :
    ∃ rests, KeyRange.Selections range order
      (js.map fun j => (snapshots j).filter (range.qualifies order f))
      (js.map fun j => range.select order f (snapshots j)) rests := by
  induction js with
  | nil => exact ⟨[], .nil⟩
  | cons j js ih =>
    obtain ⟨rests, hrests⟩ := ih
    obtain ⟨rest, hrest⟩ := KeyRange.selection_truncate range order
      ((snapshots j).filter (range.qualifies order f))
    exact ⟨rest ++ rests, .cons hrest hrests⟩

/-- Behind the replies of nodes that know the operators are the orders in which they have read. -/
theorem exists_snapshots {operators : Operators} {bucket : String} {p : Option Predicate}
    {stores : Nat → Store} {replies : Nat → Reply} {nodes : Nat}
    (horder : operators.comparator range.comparatorName = .ok order)
    (hf : operators.filter p = .ok f)
    (hops : ∀ i < nodes, (stores i).operators = operators)
    (hr : ∀ i < nodes, (stores i).RangeReply bucket range p (replies i)) :
    ∃ snapshots : Nat → List (Key × Document), ∀ i < nodes,
      (snapshots i).Perm ((stores i).contents bucket).entries ∧
        replies i = .ok (.entries (range.select order f (snapshots i))) := by
  have hread : ∀ i, ∃ snapshot, i < nodes → snapshot.Perm ((stores i).contents bucket).entries ∧
      replies i = .ok (.entries (range.select order f snapshot)) := by
    intro i
    by_cases hi : i < nodes
    · obtain ⟨order', f', snapshot, horder', hf', hsnap, hreply⟩ := hr i hi
      rw [hops i hi] at horder' hf'
      obtain rfl : order = order' := Except.ok.inj (horder.symm.trans horder')
      obtain rfl : f = f' := Except.ok.inj (hf.symm.trans hf')
      exact ⟨snapshot, fun _ => ⟨hsnap, hreply⟩⟩
    · exact ⟨[], fun h => absurd h hi⟩
  exact Classical.skolem.1 hread

/-- **Cutting off at the nodes is harmless.**  The plan of a range query whose operators are known
asks all nodes of the cluster, a node on which no operator crashes replies with a reading of its
bucket, and when all of them have replied, in any order and each after reading its bucket in any
order, the answer is the top of all their entries. -/
theorem rangeQuery_gives_top {r : Router} {id bucket : String} {p : Option Predicate}
    {ns : { ns : List Node // 0 < ns.length }} {stores : Nat → Store} (htrans : Std.TransCmp order)
    (horder : r.operators.comparator range.comparatorName = .ok order)
    (hf : r.operators.filter p = .ok f)
    (hns : r.table.clusterNodes bucket = .ok ns)
    (hops : ∀ i < ns.val.length, (stores i).operators = r.operators)
    (hdisjoint : ∀ i j k, i < ns.val.length → j < ns.val.length →
      ((stores i).contents bucket).contains k = true →
      ((stores j).contents bucket).contains k = true → i = j) :
    ∃ plan, r.plan ⟨id, .rangeQuery bucket range p⟩ = .ok plan ∧
      plan.sends = ns.val.map (·, ⟨id, .rangeQuery bucket range p⟩) ∧
      (∀ i < ns.val.length, (stores i).crashes (.rangeQuery bucket range p) = false →
        (stores i).RangeReply bucket range p
          ((stores i).handle ⟨id, .rangeQuery bucket range p⟩).1) ∧
      ∀ (js : List Nat) (replies : Nat → Reply), js.Perm (List.range ns.val.length) →
        (∀ i < ns.val.length, (stores i).RangeReply bucket range p (replies i)) →
        ∃ es, ((Request.ofPlan (.ok plan)).complete
            (js.map fun j => (j, .ofReply (replies j)))).answer = some (.ok (.entries es)) ∧
          range.Top order f (allEntries stores ns.val.length bucket) es := by
  have hplan : r.plan ⟨id, .rangeQuery bucket range p⟩ =
      .ok ⟨ns.val.map (·, ⟨id, .rangeQuery bucket range p⟩), .entries order range⟩ := by
    simp only [Router.plan, Operation.predicate?, hf, horder, Router.toAll, hns]
    rfl
  refine ⟨_, hplan, rfl, fun i hi hc => ?_, ?_⟩
  · rw [← hops i hi] at horder hf
    exact Store.rangeReply_handle horder hf hc
  intro js replies hjs hr
  have hlt : ∀ j ∈ js, j < ns.val.length := fun j hj => List.mem_range.1 (hjs.mem_iff.1 hj)
  obtain ⟨snapshots, hsnap⟩ := exists_snapshots horder hf hops hr
  let tops := js.map fun j => range.select order f (snapshots j)
  have hends : js.map (fun j => (j, SendOutcome.ofReply (replies j))) =
      js.map fun j => (j, .answered (.entries (range.select order f (snapshots j)))) := by
    apply List.map_congr_left
    intro j hj
    rw [(hsnap j (hlt j hj)).2]
    rfl
  refine ⟨range.truncate (KeyRange.sortEntries order tops.flatten), ?_, ?_⟩
  · have hmap :
      (js.map fun j => Answer.entries (range.select order f (snapshots j))) =
        tops.map .entries := by
      rw [List.map_map]
      rfl
    rw [hends, Request.answer_complete _ (by rwa [List.length_map]), hmap]
    have hparts := mapM_map_ok Answer.entries Answer.asEntries (fun _ => rfl) tops
    simp only [Merge.answer, hparts]
    rfl
  · obtain ⟨rests, hrests⟩ := selections_select range order f snapshots js
    obtain ⟨rest, hrest⟩ := KeyRange.selection_truncate range order tops.flatten
    refine (hrest.join hrests |>.of_perm ?_).isTop (allEntries_nodup hdisjoint)
    unfold allEntries
    rw [List.filter_flatMap, ← List.flatMap_def]
    exact (hjs.symm.flatMap_right _).trans
      (List.Perm.flatMap_left _ fun j hj => ((hsnap j (hlt j hj)).1.filter _).symm)

/-! ## Two nodes and ties -/

/-- Keys of the same length tie. -/
def byLength : Comparator := fun a b => compare a.bytes.length b.bytes.length

def lengthRouter : Router where
  self := ⟨"x", .v4 [127, 0, 0, 1] 1, ⟨"c", true⟩, true⟩
  table := ⟨.ofCount 1, [⟨"c", true⟩],
    .ofList [("c", [⟨"x", .v4 [127, 0, 0, 1] 1, ⟨"c", true⟩, true⟩,
      ⟨"y", .v4 [127, 0, 0, 1] 2, ⟨"c", true⟩, false⟩])], .ofList [("b", "c")]⟩
  operators := Operators.empty.withComparator "length" byLength

/-- Three of the four keys tie. -/
def lengthContents : Nat → List (Key × Document)
  | 0 => [(⟨[1]⟩, ⟨[]⟩), (⟨[2]⟩, ⟨[]⟩)]
  | _ => [(⟨[3]⟩, ⟨[]⟩), (⟨[3, 3]⟩, ⟨[]⟩)]

def lengthStores (i : Nat) : Store :=
  ⟨.ofList [("b", .ofList (lengthContents i))], lengthRouter.operators, .absent ""⟩

/-- The first two of all. -/
def lengthRange : KeyRange := ⟨⟨[]⟩, none, 2, some "length"⟩

theorem keys_disjoint_lengthStores (i j : Nat) (k : Key) (hi : i < 2) (hj : j < 2)
    (hki : ((lengthStores i).contents "b").contains k = true)
    (hkj : ((lengthStores j).contents "b").contains k = true) : i = j := by
  rw [SortedMap.contains_iff_mem_keys] at hki hkj
  have h₀ : ((lengthStores 0).contents "b").entries.map (·.1) = [⟨[1]⟩, ⟨[2]⟩] := rfl
  have h₁ : ((lengthStores 1).contents "b").entries.map (·.1) = [⟨[3]⟩, ⟨[3, 3]⟩] := rfl
  obtain rfl | rfl : i = 0 ∨ i = 1 := by omega
  · obtain rfl | rfl : j = 0 ∨ j = 1 := by omega
    · rfl
    · rw [h₀] at hki
      rw [h₁] at hkj
      rcases List.mem_pair.1 hki with rfl | rfl <;> exact absurd hkj (by decide)
  · obtain rfl | rfl : j = 0 ∨ j = 1 := by omega
    · rw [h₀] at hkj
      rw [h₁] at hki
      rcases List.mem_pair.1 hkj with rfl | rfl <;> exact absurd hki (by decide)
    · rfl

/-- The second node is the first to answer and reads its bucket in key order, as all nodes do here;
the first one reads its bucket backwards. -/
theorem rangeQuery_gives_top_byLength :
    ∃ plan, lengthRouter.plan ⟨"1", .rangeQuery "b" lengthRange none⟩ = .ok plan ∧
    ∃ replies : Nat → Reply, replies 0 = .ok (.entries [(⟨[2]⟩, ⟨[]⟩), (⟨[1]⟩, ⟨[]⟩)]) ∧
      replies 1 = ((lengthStores 1).handle ⟨"1", .rangeQuery "b" lengthRange none⟩).1 ∧
      ∃ es, ((Request.ofPlan (.ok plan)).complete
        ([1, 0].map fun j => (j, .ofReply (replies j)))).answer =
          some (.ok (.entries es)) ∧
        lengthRange.Top byLength .all (allEntries lengthStores 2 "b") es := by
  have htrans : Std.TransCmp byLength :=
    { eq_swap := fun {a b} => Std.OrientedOrd.eq_swap (a := a.bytes.length) (b := b.bytes.length)
      isLE_trans := fun {a b c} h h' =>
        Std.TransCmp.isLE_trans (a := a.bytes.length) (b := b.bytes.length) (c := c.bytes.length)
          h h' }
  obtain ⟨plan, hplan, -, hhandle, h⟩ :=
    @rangeQuery_gives_top lengthRange byLength .all lengthRouter
    "1" "b" none _ lengthStores htrans rfl rfl rfl (fun _ _ => rfl) keys_disjoint_lengthStores
  have hback : (lengthStores 0).RangeReply "b" lengthRange none
      (.ok (.entries (lengthRange.select byLength .all (lengthContents 0).reverse))) :=
    ⟨byLength, .all, _, rfl, rfl, List.reverse_perm _, rfl⟩
  refine ⟨plan, hplan, fun i =>
    if i = 0 then .ok (.entries (lengthRange.select byLength .all (lengthContents 0).reverse))
    else ((lengthStores i).handle ⟨"1", .rangeQuery "b" lengthRange none⟩).1,
    ?_, rfl, h [1, 0] _ (by decide) fun i hi => ?_⟩
  · simp only [KeyRange.select, KeyRange.sortEntries, if_true]
    rw [List.mergeSort_of_pairwise (by decide)]
    rfl
  · obtain rfl | rfl : i = 0 ∨ i = 1 := by change i < 2 at hi; omega
    · exact hback
    · exact hhandle 1 hi (by decide)

end BucketCluster
