import BucketCluster.Proofs.Routing.Pinning
import Mathlib.Data.List.Pairwise

/-!
# A table is what its last calls say

Of the calls that have built a table the last one about a cluster, or about the pin of a
bucket, is the one that shows: the cluster as it came with that call, and of the nodes in
that call the first one of each name (`depicts_built`).  This says all about a table
(`Depicts.unique`), so it does not matter in which order calls about different things are
made, as long as the last one about each of them stays the last (`built_eq_of_last`).

Two calls about different things may change places, then, across all calls that leave
both of them alone (`last_calls_decide`).  If there is a call between them that takes the
place of the earlier one, the exchange brings the earlier one back to the end, and it
shows again (`exchange_revives`).
-/

namespace BucketCluster

namespace Node

/-! ## The first node of each name -/

/-- The second list has of each name in the first one the node that comes first, and
nothing else. -/
def FirstOfEach (ns ms : List Node) : Prop := ∀ n, n ∈ ms ↔ ns.find? (·.name == n.name) = some n

/-- Nodes of one name stay in place. -/
theorem filter_sort (ns : List Node) (name : String) :
    (sort ns).filter (·.name == name) = ns.filter (·.name == name) := by
  have hname : ∀ n ∈ ns.filter (·.name == name), n.name = name :=
    fun n hn => beq_iff_eq.1 (List.mem_filter.1 hn).2
  have hle : (ns.filter (·.name == name)).Pairwise fun a b => (a.order b).isLE := by
    refine List.pairwise_of_forall_mem_list fun a ha b hb => ?_
    rw [order, hname a ha, hname b hb, Std.ReflOrd.compare_self]
    rfl
  have hsub : (ns.filter (·.name == name)).Sublist (sort ns) :=
    List.sublist_mergeSort isLE_names_trans isLE_names_total hle List.filter_sublist
  have hsub' := hsub.filter (·.name == name)
  simp only [List.filter_filter, Bool.and_self] at hsub'
  exact (hsub'.eq_of_length ((sort_perm ns).filter _).length_eq.symm).symm

theorem find?_sort (ns : List Node) (name : String) :
    (sort ns).find? (·.name == name) = ns.find? (·.name == name) := by
  rw [← List.head?_filter, ← List.head?_filter, filter_sort]

theorem find?_name_cons (n : Node) (ns : List Node) (name : String) :
    (n :: ns).find? (·.name == name) =
      if n.name = name then some n else ns.find? (·.name == name) := by
  by_cases hn : n.name = name <;> simp [hn]

/-- What is left out follows a node of its name, and is not the first one. -/
theorem find?_dedupAux {p : Node} {name : String} (hp : p.name ≠ name) (ns : List Node) :
    (dedupAux p ns).find? (·.name == name) = ns.find? (·.name == name) := by
  induction ns generalizing p with
  | nil => rfl
  | cons n ns ih =>
    rw [dedupAux, find?_name_cons]
    split
    case isTrue hsame =>
      have hn : n.name ≠ name := beq_iff_eq.1 hsame ▸ hp
      rw [ih hp, if_neg hn]
    case isFalse =>
      rw [find?_name_cons]
      split
      case isTrue => rfl
      case isFalse hn => exact ih hn

theorem find?_dedup (ns : List Node) (name : String) :
    (dedup ns).find? (·.name == name) = ns.find? (·.name == name) := by
  cases ns with
  | nil => rfl
  | cons n ns =>
    rw [dedup, find?_name_cons, find?_name_cons]
    split
    case isTrue => rfl
    case isFalse hn => exact find?_dedupAux hn ns

theorem firstOfEach_dedup_sort (ns : List Node) : FirstOfEach ns (dedup (sort ns)) := by
  intro n
  rw [← find?_sort, ← find?_dedup]
  exact ⟨find?_name_of_nodup (dedup_sort_nodup ns), List.mem_of_find?_eq_some⟩

end Node

namespace RoutingTable

variable {t u : RoutingTable} {partitions : UInt32} {changes changes' : List Change} {name : String}

/-! ## What the last calls say -/

/-- The table is the one that the last calls describe. -/
structure Depicts (partitions : UInt32) (changes : List Change) (t : RoutingTable) : Prop where
  partitioning : t.partitioning = .ofCount partitions
  /-- Clusters and the nodes of each cluster increase strictly by name. -/
  ordered : t.Ordered
  /-- A cluster is as it came last. -/
  clusters : ∀ c, c ∈ t.clusters ↔ ∃ ns, lastCluster c.name changes = some (c, ns)
  /-- There are entries for clusters, and for nothing else. -/
  entries : ∀ name, t.nodes.contains name = true ↔ name ∈ t.clusters.map (·.name)
  nodes : ∀ name c ns, lastCluster name changes = some (c, ns) →
    ∃ ms, t.nodes.get? name = some ms ∧ Node.FirstOfEach ns ms
  pins : ∀ bucket, t.pins.get? bucket = lastPin bucket changes

theorem partitioning_built (partitions : UInt32) (changes : List Change) :
    (built partitions changes).partitioning = .ofCount partitions := by
  induction changes using List.reverseRecOn with
  | nil => rfl
  | append_singleton changes ch ih =>
    rw [built_concat]
    cases ch <;> exact ih

theorem depicts_built (partitions : UInt32) (changes : List Change) :
    Depicts partitions changes (built partitions changes) where
  partitioning := partitioning_built partitions changes
  ordered := ordered_built partitions changes
  clusters _ := cluster_mem_built
  entries name := by
    rw [mem_clusters_built, SortedMap.contains, nodes_built, Option.isSome_map,
      Option.isSome_iff_ne_none]
  nodes name c ns h := by
    refine ⟨_, ?_, Node.firstOfEach_dedup_sort ns⟩
    rw [nodes_built, lastNodes_eq, h]
    rfl
  pins := pins_built partitions changes

theorem Depicts.get?_eq_none (h : Depicts partitions changes t)
    (hlast : lastCluster name changes = none) : t.nodes.get? name = none := by
  by_contra hsome
  obtain ⟨c, hc, rfl⟩ := List.mem_map.1 ((h.entries name).1 (Option.isSome_iff_ne_none.2 hsome))
  obtain ⟨ns, hns⟩ := (h.clusters c).1 hc
  rw [hlast] at hns
  cases hns

/-- The last calls describe one table. -/
theorem Depicts.unique (h : Depicts partitions changes t) (h' : Depicts partitions changes u) :
    t = u := by
  have hclusters : t.clusters = u.clusters :=
    eq_of_pairwise_lt h.ordered.clusters h'.ordered.clusters fun c =>
      (h.clusters c).trans (h'.clusters c).symm
  have hnodes : t.nodes = u.nodes := by
    refine SortedMap.ext_get? fun name => ?_
    cases hlast : lastCluster name changes with
    | none => rw [h.get?_eq_none hlast, h'.get?_eq_none hlast]
    | some last =>
      obtain ⟨ms, hms, hfirst⟩ := h.nodes name _ _ hlast
      obtain ⟨ms', hms', hfirst'⟩ := h'.nodes name _ _ hlast
      rw [hms, hms', eq_of_pairwise_lt (h.ordered.nodes name ms hms)
        (h'.ordered.nodes name ms' hms') fun n => (hfirst n).trans (hfirst' n).symm]
  have hpins : t.pins = u.pins := SortedMap.ext_get? fun bucket =>
    (h.pins bucket).trans (h'.pins bucket).symm
  have hpartitioning := h.partitioning.trans h'.partitioning.symm
  cases t
  cases u
  rw [RoutingTable.mk.injEq]
  exact ⟨hpartitioning, hclusters, hnodes, hpins⟩

/-- Calls in another order make the same table if they end alike. -/
theorem built_eq_of_last (hcluster : ∀ name, lastCluster name changes = lastCluster name changes')
    (hpin : ∀ bucket, lastPin bucket changes = lastPin bucket changes') :
    built partitions changes = built partitions changes' := by
  have h := depicts_built partitions changes
  refine Depicts.unique ?_ (depicts_built partitions changes')
  exact {
    partitioning := h.partitioning
    ordered := h.ordered
    clusters := fun c => by rw [h.clusters, hcluster]
    entries := h.entries
    nodes := fun name c ns hlast => h.nodes name c ns (by rw [hcluster, hlast])
    pins := fun bucket => by rw [h.pins, hpin] }

/-! ## Exchanges -/

/-- The calls are about the same cluster, or about the same bucket: the later one takes the
place of the other. -/
def Change.Overrides : Change → Change → Prop
  | .cluster c _, .cluster d _ => c.name = d.name
  | .pin bucket _, .pin bucket' _ => bucket = bucket'
  | _, _ => False

instance : ∀ a b : Change, Decidable (a.Overrides b)
  | .cluster c _, .cluster d _ => inferInstanceAs (Decidable (c.name = d.name))
  | .pin bucket _, .pin bucket' _ => inferInstanceAs (Decidable (bucket = bucket'))
  | .cluster .., .pin .. => inferInstanceAs (Decidable False)
  | .pin .., .cluster .. => inferInstanceAs (Decidable False)

/-- A call that is overridden between two others is overridden after them as well. -/
def Settled (mid ys : List Change) (ch : Change) : Prop :=
  (∃ x ∈ mid, x.Overrides ch) → ∃ y ∈ ys, y.Overrides ch

instance (mid ys : List Change) (ch : Change) : Decidable (Settled mid ys ch) :=
  inferInstanceAs (Decidable ((∃ x ∈ mid, x.Overrides ch) → ∃ y ∈ ys, y.Overrides ch))

section

variable {α : Type} {f : Change → Option α} {a b : Change} {mid ys : List Change}

theorem findSome?_of_settled (hf : ∀ x y, f x ≠ none → (f y ≠ none ↔ y.Overrides x))
    (hsettled : Settled mid ys a) (ha : f a ≠ none) (hys : ys.reverse.findSome? f = none) :
    mid.reverse.findSome? f = none := by
  rw [List.findSome?_eq_none_iff] at hys ⊢
  by_contra hmid
  push Not at hmid
  obtain ⟨x, hx, hfx⟩ := hmid
  obtain ⟨y, hy, hover⟩ := hsettled ⟨x, List.mem_reverse.1 hx, (hf a x ha).1 hfx⟩
  exact (hf a y ha).2 hover (hys y (List.mem_reverse.2 hy))

/-- Who looks for the last call about one thing does not see the exchange of two about
different things. -/
theorem findSome?_exchange (hf : ∀ x y, f x ≠ none → (f y ≠ none ↔ y.Overrides x))
    (hab : ¬a.Overrides b) (ha : Settled mid ys a) (hb : Settled mid ys b) (xs : List Change) :
    (xs ++ a :: mid ++ b :: ys).reverse.findSome? f =
      (xs ++ b :: mid ++ a :: ys).reverse.findSome? f := by
  have hsplit : ∀ a b, (xs ++ a :: mid ++ b :: ys).reverse.findSome? f =
      (ys.reverse.findSome? f).or
        ((f b).or ((mid.reverse.findSome? f).or ((f a).or (xs.reverse.findSome? f)))) := by
    intro a b
    cases hfa : f a <;> cases hfb : f b <;> simp [List.findSome?_append, hfa, hfb]
  rw [hsplit, hsplit]
  cases hys : ys.reverse.findSome? f with
  | some found => rfl
  | none =>
    cases hfa : f a with
    | none =>
      cases hfb : f b with
      | none => rfl
      | some found =>
        rw [findSome?_of_settled hf hb (by simp [hfb]) hys]
        rfl
    | some found =>
      cases hfb : f b with
      | none =>
        rw [findSome?_of_settled hf ha (by simp [hfa]) hys]
        rfl
      | some found' => exact absurd ((hf b a (by simp [hfb])).1 (by simp [hfa])) hab

end

theorem lastCluster_exchange {a b : Change} {mid ys : List Change} (hab : ¬a.Overrides b)
    (ha : Settled mid ys a) (hb : Settled mid ys b) (xs : List Change) (name : String) :
    lastCluster name (xs ++ a :: mid ++ b :: ys) = lastCluster name
      (xs ++ b :: mid ++ a :: ys) := by
  refine findSome?_exchange ?_ hab ha hb xs
  rintro (⟨c, ns⟩ | ⟨bucket, c⟩) (⟨d, ms⟩ | ⟨bucket', d⟩) hx
  · have hname : c.name = name := by simpa using hx
    simp [Change.Overrides, hname]
  · simp [Change.Overrides]
  · exact absurd rfl hx
  · exact absurd rfl hx

theorem lastPin_exchange {a b : Change} {mid ys : List Change} (hab : ¬a.Overrides b)
    (ha : Settled mid ys a) (hb : Settled mid ys b) (xs : List Change) (bucket : String) :
    lastPin bucket (xs ++ a :: mid ++ b :: ys) = lastPin bucket (xs ++ b :: mid ++ a :: ys) := by
  refine findSome?_exchange ?_ hab ha hb xs
  rintro (⟨c, ns⟩ | ⟨first, c⟩) (⟨d, ms⟩ | ⟨second, d⟩) hx
  · exact absurd rfl hx
  · exact absurd rfl hx
  · simp [Change.Overrides]
  · have hbucket : first = bucket := by simpa using hx
    simp [Change.Overrides, hbucket]

/-- **The last calls decide.**  Whatever calls have built a table, it is the one that the
last of them describe. Two calls about different things may change places anywhere, unless a
call between them overrides one of the two and no call after them does. -/
theorem last_calls_decide (partitions : UInt32) :
    (∀ changes, Depicts partitions changes (built partitions changes)) ∧
    ∀ xs a mid b ys, ¬a.Overrides b → Settled mid ys a → Settled mid ys b →
      built partitions (xs ++ a :: mid ++ b :: ys) = built partitions
        (xs ++ b :: mid ++ a :: ys) := by
  refine ⟨depicts_built partitions, ?_⟩
  intro xs a mid b ys hab ha hb
  exact built_eq_of_last (lastCluster_exchange hab ha hb xs) (lastPin_exchange hab ha hb xs)

/-- The cluster with the one node, and the cluster with the other in its place. -/
def eastCall : Change := .cluster ⟨"c", true⟩ [eastNode]

def westCall : Change := .cluster ⟨"c", true⟩ [westNode, westNode]

/-- A cluster of another name. -/
def farCall : Change := .cluster ⟨"d", false⟩ []

/-- The cluster is replaced between the two calls, and once more after both. -/
theorem last_calls_decide_replaced : ¬eastCall.Overrides farCall ∧
    Settled [westCall, .pin "docs" "d"] [westCall] eastCall ∧
    Settled [westCall, .pin "docs" "d"] [westCall] farCall ∧
    built 16 [eastCall, westCall, .pin "docs" "d", farCall, westCall] =
      built 16 [farCall, westCall, .pin "docs" "d", eastCall, westCall] := by
  have hab : ¬eastCall.Overrides farCall := by decide
  have ha : Settled [westCall, .pin "docs" "d"] [westCall] eastCall := by decide
  have hb : Settled [westCall, .pin "docs" "d"] [westCall] farCall := by decide
  exact ⟨hab, ha, hb, (last_calls_decide 16).2 [] _ _ _ _ hab ha hb⟩

/-- What had been replaced shows again if its call goes to the end. -/
theorem exchange_revives : ("c" : String) ≠ "d" ∧
    built 16 [eastCall, westCall, farCall] ≠ built 16 [farCall, westCall, eastCall] := by
  refine ⟨by decide, fun h => ?_⟩
  have hbefore : lastCluster "c" [eastCall, westCall, farCall] =
    some (⟨"c", true⟩, [westNode, westNode]) := rfl
  have hafter : lastCluster "c" [farCall, westCall, eastCall] =
    some (⟨"c", true⟩, [eastNode]) := rfl
  obtain ⟨ns, hns, hwest⟩ := (depicts_built 16 _).nodes _ _ _ hbefore
  obtain ⟨ms, hms, heast⟩ := (depicts_built 16 _).nodes _ _ _ hafter
  rw [h, hms] at hns
  have hmem : eastNode ∈ ns := Option.some.inj hns ▸ (heast eastNode).2 rfl
  exact absurd ((hwest eastNode).1 hmem) (by decide)

end RoutingTable

end BucketCluster
