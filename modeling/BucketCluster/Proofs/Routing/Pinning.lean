import BucketCluster.Proofs.Routing.Splitting
import Mathlib.Data.List.Induction

/-!
# Where pinned buckets go

The calls that build a table are read here without the table: the last pin of a bucket
names its cluster (`lastPin`), and the last call that adds the cluster names its nodes
(`lastNodes`).  Clusters and pins may come in any order, so a bucket can be pinned
before its cluster is there, pinned again, or have its cluster replaced later.

A bucket that is pinned to a cluster of the table is looked up among the nodes of this
cluster and nowhere else, and not found if there are none (`pin_decides`).  A pin to a
cluster that the table lacks is passed over, though: the bucket goes wherever its hash
takes it (`absent_pin_scatters`).
-/

namespace BucketCluster

namespace Node

variable {ns : List Node}

theorem mem_of_mem_dedup_sort {n : Node} (h : n ∈ dedup (sort ns)) : n ∈ ns :=
  (sort_perm ns).mem_iff.1 (mem_of_mem_dedup h)

/-- The first node stays. -/
theorem dedup_eq_nil_iff : dedup ns = [] ↔ ns = [] := by
  cases ns <;> simp [dedup]

theorem dedup_sort_ne_nil (h : ns ≠ []) : dedup (sort ns) ≠ [] := by
  rw [ne_eq, dedup_eq_nil_iff]
  intro hnil
  have hperm := sort_perm ns
  rw [hnil] at hperm
  exact h hperm.symm.eq_nil

end Node

namespace RoutingTable

/-! ## The last calls -/

/-- The cluster that the last pin of a bucket names. -/
def lastPin (bucket : String) (changes : List Change) : Option String :=
  changes.reverse.findSome? fun
    | .pin b c => if b = bucket then some c else none
    | .cluster .. => none

/-- The nodes that come with the last cluster of a name. -/
def lastNodes (name : String) (changes : List Change) : Option (List Node) :=
  changes.reverse.findSome? fun
    | .cluster c ns => if c.name = name then some ns else none
    | .pin .. => none

/-- The last cluster of a name, and the nodes that come with it. -/
def lastCluster (name : String) (changes : List Change) : Option (Cluster × List Node) :=
  changes.reverse.findSome? fun
    | .cluster c ns => if c.name = name then some (c, ns) else none
    | .pin .. => none

variable {t : RoutingTable} {partitions : UInt32} {changes : List Change} {bucket name : String}

theorem built_concat (partitions : UInt32) (changes : List Change) (ch : Change) :
    built partitions (changes ++ [ch]) = (built partitions changes).change ch := by
  unfold built
  rw [List.foldl_append]
  rfl

/-- The last of all is looked at first. -/
theorem findSome?_concat {α : Type} (f : Change → Option α) (changes : List Change) (ch : Change) :
    (changes ++ [ch]).reverse.findSome? f = (f ch).or (changes.reverse.findSome? f) := by
  rw [List.reverse_append, List.reverse_singleton, List.singleton_append, List.findSome?_cons]
  cases f ch <;> rfl

theorem lastPin_concat (bucket : String) (changes : List Change) (ch : Change) :
    lastPin bucket (changes ++ [ch]) = match ch with
      | .pin b c => if b = bucket then some c else lastPin bucket changes
      | .cluster .. => lastPin bucket changes := by
  rw [lastPin, findSome?_concat]
  cases ch with
  | cluster c ns => rfl
  | pin b c => by_cases hb : b = bucket <;> simp [lastPin, hb]

theorem lastNodes_concat (name : String) (changes : List Change) (ch : Change) :
    lastNodes name (changes ++ [ch]) = match ch with
      | .cluster c ns => if c.name = name then some ns else lastNodes name changes
      | .pin .. => lastNodes name changes := by
  rw [lastNodes, findSome?_concat]
  cases ch with
  | pin b c => rfl
  | cluster c ns => by_cases hc : c.name = name <;> simp [lastNodes, hc]

theorem lastCluster_concat (name : String) (changes : List Change) (ch : Change) :
    lastCluster name (changes ++ [ch]) = match ch with
      | .cluster c ns => if c.name = name then some (c, ns) else lastCluster name changes
      | .pin .. => lastCluster name changes := by
  rw [lastCluster, findSome?_concat]
  cases ch with
  | pin b c => rfl
  | cluster c ns => by_cases hc : c.name = name <;> simp [lastCluster, hc]

theorem lastNodes_eq (name : String) (changes : List Change) :
    lastNodes name changes = (lastCluster name changes).map (·.2) := by
  unfold lastNodes lastCluster
  rw [List.map_findSome?]
  congr 1
  funext ch
  cases ch with
  | pin b c => rfl
  | cluster c ns => by_cases hc : c.name = name <;> simp [hc]

/-- The last cluster of a name has this name. -/
theorem name_of_lastCluster {c : Cluster} {ns : List Node}
    (h : lastCluster name changes = some (c, ns)) : c.name = name := by
  obtain ⟨ch, -, hch⟩ := List.exists_of_findSome?_eq_some h
  cases ch with
  | pin b d => cases hch
  | cluster d ms =>
    simp only [Option.ite_none_right_eq_some, Option.some.injEq, Prod.mk.injEq] at hch
    obtain ⟨hname, rfl, -⟩ := hch
    exact hname

/-- A table has the last pin of each bucket. -/
theorem pins_built (partitions : UInt32) (changes : List Change) (bucket : String) :
    (built partitions changes).pins.get? bucket = lastPin bucket changes := by
  induction changes using List.reverseRecOn with
  | nil => rfl
  | append_singleton changes ch ih =>
    rw [built_concat, lastPin_concat]
    cases ch with
    | cluster c ns => exact ih
    | pin b c =>
      simp only [change, withPin]
      by_cases hb : b = bucket
      · subst hb
        rw [if_pos rfl, SortedMap.get?_insert_self]
      · rw [if_neg hb, SortedMap.get?_insert_of_ne _ _ (Ne.symm hb), ih]

/-- A table has the last nodes of each cluster, in order and each name once. -/
theorem nodes_built (partitions : UInt32) (changes : List Change) (name : String) :
    (built partitions changes).nodes.get? name =
      (lastNodes name changes).map fun ns => Node.dedup (Node.sort ns) := by
  induction changes using List.reverseRecOn with
  | nil => rfl
  | append_singleton changes ch ih =>
    rw [built_concat, lastNodes_concat]
    cases ch with
    | pin b c => exact ih
    | cluster c ns =>
      simp only [change, nodes_withCluster]
      by_cases hc : c.name = name
      · rw [if_pos hc, if_pos hc.symm, Option.map_some]
      · rw [if_neg hc, if_neg (Ne.symm hc), ih]

/-- A cluster takes the place of the one of its name. -/
theorem mem_clusters_withCluster {c d : Cluster} {ns : List Node} :
    d ∈ (t.withCluster c ns).clusters ↔ d = c ∨ d ∈ t.clusters ∧ d.name ≠ c.name := by
  rw [(t.clusters_withCluster c ns).mem_iff, List.mem_cons, List.mem_filter]
  simp [Cluster.same]

/-- The clusters of a table are the last ones of their names. -/
theorem cluster_mem_built {c : Cluster} : c ∈ (built partitions changes).clusters ↔
    ∃ ns, lastCluster c.name changes = some (c, ns) := by
  induction changes using List.reverseRecOn with
  | nil => simp [built, empty, lastCluster]
  | append_singleton changes ch ih =>
    rw [built_concat, lastCluster_concat]
    cases ch with
    | pin b d => exact ih
    | cluster d ns =>
      refine mem_clusters_withCluster.trans ?_
      by_cases hd : d.name = c.name
      · simp only [hd, ne_eq, not_true_eq_false, and_false, or_false, if_true, Option.some.injEq,
          Prod.mk.injEq, exists_and_left, exists_eq', and_true]
        exact eq_comm
      · have hne : c ≠ d := fun heq => hd (by rw [heq])
        simp only [hne, false_or, if_neg hd, ih, ne_eq, Ne.symm hd, not_false_eq_true, and_true]

/-- A table has a cluster of a name if one has been added. -/
theorem mem_clusters_built (partitions : UInt32) (changes : List Change) (name : String) :
    name ∈ (built partitions changes).clusters.map (·.name) ↔ lastNodes name changes ≠ none := by
  rw [lastNodes_eq, ne_eq, Option.map_eq_none_iff, List.mem_map, ← ne_eq,
    Option.ne_none_iff_exists']
  constructor
  · rintro ⟨c, hc, rfl⟩
    obtain ⟨ns, hns⟩ := cluster_mem_built.1 hc
    exact ⟨_, hns⟩
  · rintro ⟨⟨c, ns⟩, hlast⟩
    obtain rfl := name_of_lastCluster hlast
    exact ⟨c, cluster_mem_built.2 ⟨ns, hlast⟩, rfl⟩

/-! ## Looking up a pinned bucket -/

/-- Without clusters no bucket belongs anywhere. -/
theorem clusterFor_of_nil (h : t.clusters = []) (bucket : String) :
    t.clusterFor bucket = .error (.noCluster bucket) := by
  have hnone : t.pinnedCluster? bucket = none := by
    unfold pinnedCluster?
    rw [h]
    cases t.pins.get? bucket <;> rfl
  unfold clusterFor
  rw [hnone]
  simp [h]

/-- All that is looked up for a bucket is found, and among the given nodes. -/
structure Within (t : RoutingTable) (bucket : String) (ns : List Node) : Prop where
  clusterNodes : ∃ ms, t.clusterNodes bucket = .ok ms ∧ ∀ n ∈ ms.val, n ∈ ns
  nodeFor : ∀ k, ∃ n ∈ ns, t.nodeFor bucket k = .ok n
  nodesFor : ∀ ks, ∃ shares, t.nodesFor bucket ks = .ok shares ∧ ∀ s ∈ shares, s.1 ∈ ns

/-- Whatever is looked up for a bucket, there is no route to it. -/
structure Unrouted (t : RoutingTable) (bucket : String) (e : RouteError) : Prop where
  clusterNodes : t.clusterNodes bucket = .error e
  nodeFor : ∀ k, t.nodeFor bucket k = .error e
  nodesFor : ∀ ks, t.nodesFor bucket ks = .error e

theorem within_of_clusterNodes {ns : List Node} {ms : { ns : List Node // 0 < ns.length }}
    (h : t.clusterNodes bucket = .ok ms) (hms : ∀ n ∈ ms.val, n ∈ ns) : t.Within bucket ns where
  clusterNodes := ⟨ms, h, hms⟩
  nodeFor k :=
    ⟨_, hms _ (List.mem_of_getElem? (t.getElem?_owner bucket ms k)), nodeFor_of_clusterNodes h k⟩
  nodesFor ks := by
    obtain ⟨shares, hshares⟩ : ∃ shares, t.nodesFor bucket ks = .ok shares := by
      unfold RoutingTable.nodesFor
      rw [h]
      exact ⟨_, rfl⟩
    refine ⟨shares, hshares, fun s hs => ?_⟩
    obtain ⟨i, hi, -⟩ := (mem_nodesFor h hshares).1 hs
    exact hms _ (List.mem_of_getElem? hi)

theorem unrouted_of_clusterNodes {e : RouteError} (h : t.clusterNodes bucket = .error e) :
    t.Unrouted bucket e where
  clusterNodes := h
  nodeFor k := by
    unfold RoutingTable.nodeFor
    rw [h]
    rfl
  nodesFor ks := by
    unfold RoutingTable.nodesFor
    rw [h]
    rfl

/-- **A pin decides.**  Whatever calls have built a table: if the cluster that a bucket was
last pinned to is in it, the bucket is looked up among the nodes that came last with this
cluster, and if there are none it has no route; and it has none in a table without clusters. -/
theorem pin_decides (partitions : UInt32) {changes : List Change} {bucket name : String}
    (hpin : lastPin bucket changes = some name)
    (hname : lastNodes name changes = none → ∀ other, lastNodes other changes = none) :
    (∃ ns, lastNodes name changes = some ns ∧ ns ≠ [] ∧
      (built partitions changes).Within bucket ns) ∨
    (lastNodes name changes = some [] ∧
      (built partitions changes).Unrouted bucket (.emptyCluster name)) ∨
    (lastNodes name changes = none ∧
      (built partitions changes).Unrouted bucket (.noCluster bucket)) := by
  have hpins := (pins_built partitions changes bucket).trans hpin
  have hnodes := nodes_built partitions changes name
  cases hlast : lastNodes name changes with
  | none =>
    -- then there is no cluster at all
    have hnil : (built partitions changes).clusters = [] := by
      refine List.eq_nil_iff_forall_not_mem.2 fun c hc => ?_
      exact (mem_clusters_built partitions changes c.name).1 (List.mem_map_of_mem hc)
        (hname hlast c.name)
    refine .inr (.inr ⟨rfl, unrouted_of_clusterNodes ?_⟩)
    unfold clusterNodes
    rw [clusterFor_of_nil hnil]
    rfl
  | some ns =>
    have hmem : name ∈ (built partitions changes).clusters.map (·.name) :=
      (mem_clusters_built partitions changes name).2 (by simp [hlast])
    obtain ⟨c, hc, rfl⟩ := clusterFor_of_pins hpins hmem
    rw [hlast, Option.map_some] at hnodes
    have hlookup : (built partitions changes).clusterNodes bucket =
        (built partitions changes).nodesOf c := by
      unfold clusterNodes
      rw [hc]
      rfl
    unfold nodesOf at hlookup
    simp only [hnodes, Option.getD_some] at hlookup
    by_cases hns : ns = []
    · subst hns
      have hnot : ¬0 < (Node.dedup (Node.sort [])).length := by simp [Node.sort, Node.dedup]
      rw [dif_neg hnot] at hlookup
      exact .inr (.inl ⟨rfl, unrouted_of_clusterNodes hlookup⟩)
    · have hpos := List.length_pos_iff.2 (Node.dedup_sort_ne_nil hns)
      rw [dif_pos hpos] at hlookup
      exact .inl ⟨ns, rfl, hns, within_of_clusterNodes hlookup fun n => Node.mem_of_mem_dedup_sort⟩

/-- The bucket is pinned before its cluster is there, then pinned elsewhere, and the cluster
is replaced. -/
def repinnedCalls : List Change :=
  [.pin "docs" "archive", .pin "logs" "main", .cluster ⟨"archive", false⟩ [eastNode],
    .pin "docs" "main", .cluster ⟨"main", true⟩ [eastNode], .cluster ⟨"main", true⟩ [westNode]]

theorem pin_decides_repinned : lastPin "docs" repinnedCalls = some "main" ∧
    (∃ ns, lastNodes "main" repinnedCalls = some ns ∧ ns ≠ [] ∧
      (built 16 repinnedCalls).Within "docs" ns) :=
  have hpin : lastPin "docs" repinnedCalls = some "main" := by decide
  have hnodes : lastNodes "main" repinnedCalls = some [westNode] := rfl
  have hdecides := pin_decides 16 hpin (by simp [hnodes])
  ⟨hpin, hdecides.resolve_right (by simp [hnodes])⟩

/-- A bucket pinned to a cluster that is not there has its keys on the nodes of another one. -/
theorem absent_pin_scatters : lastPin "pinned" twoNodeCalls = some "gone" ∧
    lastNodes "gone" twoNodeCalls = none ∧
    (built 16 twoNodeCalls).nodeFor "pinned" ⟨[4]⟩ = .ok westNode ∧
    (built 16 twoNodeCalls).nodeFor "pinned" ⟨[5]⟩ = .ok eastNode := by
  rw [built_twoNodeCalls]
  exact ⟨rfl, rfl, rfl, rfl⟩

end RoutingTable

end BucketCluster
