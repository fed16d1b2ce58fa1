import BucketCluster.Proofs.Routing.Building
import BucketCluster.Proofs.Routing.Ensemble
import Mathlib.Data.List.Forall2
import Mathlib.Data.List.Nodup
import Mathlib.Data.List.Perm.Basic

/-!
# All processes agree on the owners

Two processes read the same configuration, in which clusters and members may stand in
another order, and each builds a table of its own, with itself in the place of its own
entry.  `ofEnsemble_agrees` says that the tables answer every question about owners
alike, errors included (`Agrees`), and that each of them is a true picture of the
configuration (`Shows`).

The order does not matter because no name comes twice in an accepted configuration:
then nothing is replaced and nothing left out when the table is built
(`clusters_ofEnsemble`, `nodes_ofEnsemble`), and lists that are sorted by different
names are known by their members.
-/

namespace BucketCluster

namespace Ensemble

/-- The same configuration with its clusters, and the members of each, in another order. -/
structure Reorders (e e' : Ensemble) : Prop where
  partitions : e.partitions = e'.partitions
  pins : e.pins = e'.pins
  clusters : ∃ cs, e.clusters.Perm cs ∧
    List.Forall₂ (fun c c' => c.name = c'.name ∧ c.members.Perm c'.members) cs e'.clusters

/-- The configuration has an entry for the node, in the node's own cluster. -/
def Lists (e : Ensemble) (self : Node) : Prop :=
  ∃ c ∈ e.clusters, c.name = self.cluster.name ∧ ∃ m ∈ c.members, m.name = self.name

variable {e e' : Ensemble} {c : ClusterPlan}

theorem Reorders.names (h : e.Reorders e') :
    (e.clusters.map (·.name)).Perm (e'.clusters.map (·.name)) := by
  obtain ⟨cs, hcs, hall⟩ := h.clusters
  refine (hcs.map _).trans (.of_eq ?_)
  clear hcs
  generalize e'.clusters = cs' at hall
  induction hall with
  | nil => rfl
  | cons hc _ ih => rw [List.map_cons, List.map_cons, hc.1, ih]

theorem Reorders.members (h : e.Reorders e') : e.members.Perm e'.members := by
  obtain ⟨cs, hcs, hall⟩ := h.clusters
  refine (hcs.flatMap_right _).trans ?_
  unfold Ensemble.members
  clear hcs
  generalize e'.clusters = cs' at hall
  induction hall with
  | nil => exact .refl _
  | cons hc _ ih => exact hc.2.append ih

/-- A cluster of the one is a cluster of the other. -/
theorem Reorders.cluster (h : e.Reorders e') (hc : c ∈ e.clusters) :
    ∃ c' ∈ e'.clusters, c.name = c'.name ∧ c.members.Perm c'.members := by
  obtain ⟨cs, hcs, hall⟩ := h.clusters
  have hmem := hcs.mem_iff.1 hc
  clear hcs
  generalize e'.clusters = cs' at hall
  induction hall with
  | nil => cases hmem
  | @cons d d' _ _ hd _ ih =>
    rcases List.mem_cons.1 hmem with rfl | hmem
    · exact ⟨d', List.mem_cons_self, hd⟩
    · obtain ⟨c', hc', hcc'⟩ := ih hmem
      exact ⟨c', List.mem_cons_of_mem _ hc', hcc'⟩

theorem WellFormed.reorders (he : e.WellFormed) (h : e.Reorders e') : e'.WellFormed where
  partitions := h.partitions ▸ he.partitions
  clusters := h.names.nodup_iff.1 he.clusters
  members := (h.members.map _).nodup_iff.1 he.members
  pins bucket cluster hp := h.names.mem_iff.1 (he.pins bucket cluster (h.pins ▸ hp))

/-- The members of one cluster have different names. -/
theorem WellFormed.nodup_members (he : e.WellFormed) (hc : c ∈ e.clusters) :
    (c.members.map (·.name)).Nodup := by
  refine he.members.sublist (List.Sublist.map _ ?_)
  rw [Ensemble.members, List.flatMap_def]
  exact List.sublist_flatten_of_mem (List.mem_map_of_mem hc)

/-- A cluster is found by its name. -/
theorem WellFormed.find?_name (he : e.WellFormed) (hc : c ∈ e.clusters) :
    e.clusters.find? (·.name == c.name) = some c :=
  find?_name_of_nodup he.clusters hc

end Ensemble

namespace RoutingTable

variable {t u : RoutingTable} {bucket : String} {e e' : Ensemble} {self self' : Node}

/-! ## Answering alike -/

/-- Whatever is asked about owners, the tables give the same names and the same errors. -/
structure Agrees (t u : RoutingTable) : Prop where
  clusterFor : ∀ bucket, (t.clusterFor bucket).map (·.name) = (u.clusterFor bucket).map (·.name)
  nodeFor : ∀ bucket k, (t.nodeFor bucket k).map (·.name) = (u.nodeFor bucket k).map (·.name)
  nodesFor : ∀ bucket ks, (t.nodesFor bucket ks).map (List.map fun s => (s.1.name, s.2)) =
    (u.nodesFor bucket ks).map (List.map fun s => (s.1.name, s.2))
  clusterNodes : ∀ bucket, (t.clusterNodes bucket).map (·.val.map (·.name)) =
    (u.clusterNodes bucket).map (·.val.map (·.name))

theorem SameNames.clusterNodes (h : SameNames t u) (bucket : String) :
    (t.clusterNodes bucket).map (·.val.map (·.name)) =
      (u.clusterNodes bucket).map (·.val.map (·.name)) := by
  have hcluster := h.clusterFor bucket
  unfold RoutingTable.clusterNodes
  cases ht : t.clusterFor bucket with
  | error err =>
    cases hu : u.clusterFor bucket with
    | error err' => rw [ht, hu] at hcluster; cases hcluster; rfl
    | ok d => rw [ht, hu] at hcluster; cases hcluster
  | ok c =>
    cases hu : u.clusterFor bucket with
    | error err => rw [ht, hu] at hcluster; cases hcluster
    | ok d =>
      rw [ht, hu] at hcluster
      have hname : c.name = d.name := Except.ok.inj hcluster
      have hgetD (o : Option (List Node)) : (o.getD []).map (·.name) =
          (o.map (List.map (·.name))).getD [] :=
        (Option.getD_map (List.map (·.name)) [] o).symm
      have hnodes : ((t.nodes.get? c.name).getD []).map (·.name) =
          ((u.nodes.get? d.name).getD []).map (·.name) := by
        rw [hname, hgetD, hgetD, h.nodes]
      have hlen := congrArg List.length hnodes
      rw [List.length_map, List.length_map] at hlen
      change (t.nodesOf c).map _ = (u.nodesOf d).map _
      unfold nodesOf
      by_cases hpos : 0 < ((t.nodes.get? c.name).getD []).length
      · simp only [dif_pos hpos, dif_pos (hlen ▸ hpos)]
        exact congrArg Except.ok hnodes
      · simp only [dif_neg hpos, dif_neg (hlen ▸ hpos)]
        rw [hname]

/-- The nodes of a bucket are there in both tables, or the same error is. -/
theorem SameNames.clusterNodes_cases (h : SameNames t u) (bucket : String) :
    (∃ err, t.clusterNodes bucket = .error err ∧ u.clusterNodes bucket = .error err) ∨
    ∃ ns ms, t.clusterNodes bucket = .ok ns ∧ u.clusterNodes bucket = .ok ms ∧
      ns.val.map (·.name) = ms.val.map (·.name) := by
  have hnodes := h.clusterNodes bucket
  cases ht : t.clusterNodes bucket with
  | error err =>
    cases hu : u.clusterNodes bucket with
    | error err' => rw [ht, hu] at hnodes; cases hnodes; exact .inl ⟨err, rfl, rfl⟩
    | ok ms => rw [ht, hu] at hnodes; cases hnodes
  | ok ns =>
    cases hu : u.clusterNodes bucket with
    | error err => rw [ht, hu] at hnodes; cases hnodes
    | ok ms => rw [ht, hu] at hnodes; exact .inr ⟨ns, ms, rfl, rfl, Except.ok.inj hnodes⟩

/-- The shares, by the names of their nodes. -/
theorem names_shares (share : Nat → KeySet) (ns : List Node) :
    (ns.zipIdx.filterMap fun (n, i) => if (share i).isEmpty then none else some (n, share i)).map
        (fun s => (s.1.name, s.2)) =
      (ns.map (·.name)).zipIdx.filterMap fun (n, i) =>
        if (share i).isEmpty then none else some (n, share i) := by
  rw [List.zipIdx_map, List.map_filterMap, List.filterMap_map]
  refine List.filterMap_congr ?_
  rintro ⟨n, i⟩ -
  by_cases hempty : (share i).isEmpty = true
  · simp [hempty]
  · simp [hempty]

theorem SameNames.agrees (h : SameNames t u) : Agrees t u where
  clusterFor := h.clusterFor
  clusterNodes := h.clusterNodes
  nodeFor bucket k := by
    unfold RoutingTable.nodeFor
    rcases h.clusterNodes_cases bucket with ⟨err, ht, hu⟩ | ⟨ns, ms, ht, hu, -⟩
    · rw [ht, hu]
      rfl
    · have hholder := h.holder bucket k
      rw [holder_of_clusterNodes ht, holder_of_clusterNodes hu] at hholder
      rw [ht, hu]
      exact congrArg Except.ok (Option.some.inj hholder)
  nodesFor bucket ks := by
    unfold RoutingTable.nodesFor
    rcases h.clusterNodes_cases bucket with ⟨err, ht, hu⟩ | ⟨ns, ms, ht, hu, hnames⟩
    · rw [ht, hu]
      rfl
    · have hlen := congrArg List.length hnames
      rw [List.length_map, List.length_map] at hlen
      rw [ht, hu]
      have hshare : ∀ i, (ks.filter fun k _ => t.ownerIndex bucket ns.val.length k == i) =
          ks.filter fun k _ => u.ownerIndex bucket ms.val.length k == i := fun i => by
        simp only [ownerIndex, h.partitioning, hlen]
      refine congrArg Except.ok ?_
      refine (names_shares (fun i => ks.filter fun k _ => t.ownerIndex bucket ns.val.length k == i)
          ns.val).trans
        (.trans ?_
          (names_shares (fun i => ks.filter fun k _ => u.ownerIndex bucket ms.val.length k == i)
            ms.val).symm)
      simp only [hnames, hshare]

/-! ## What is built of an accepted configuration -/

/-- The table with configured clusters added, one after the other. -/
def withPlans (self : Node) (t : RoutingTable) (cs : List ClusterPlan) : RoutingTable :=
  cs.foldl (fun t c => t.withCluster (seenCluster self c) (c.members.map (seenMember self c))) t

theorem partitioning_withPlans (t : RoutingTable) (cs : List ClusterPlan) :
    (withPlans self t cs).partitioning = t.partitioning := by
  induction cs generalizing t with
  | nil => rfl
  | cons c cs ih => exact ih _

theorem pins_withPlans (t : RoutingTable) (cs : List ClusterPlan) :
    (withPlans self t cs).pins = t.pins := by
  induction cs generalizing t with
  | nil => rfl
  | cons c cs ih => exact ih _

/-- Pins come in at the end and change nothing else. -/
theorem ofEnsemble_eq (e : Ensemble) (self : Node) :
    ofEnsemble e self = { withPlans self (empty e.partitions) e.clusters with pins := e.pins } := by
  have hpins : ∀ (ps : List (String × String)) (t : RoutingTable),
      ps.foldl (fun t pin => t.withPin pin.1 pin.2) t = { t with pins := t.pins.insertAll ps } := by
    intro ps
    induction ps with
    | nil => exact fun _ => rfl
    | cons p ps ih => exact fun t => ih _
  have hentries : (empty e.partitions).pins.insertAll e.pins.entries = e.pins :=
    SortedMap.ofList_entries e.pins
  refine (hpins e.pins.entries (withPlans self (empty e.partitions) e.clusters)).trans ?_
  rw [pins_withPlans, hentries]

/-- Clusters of new names are added. -/
theorem clusters_withPlans {cs : List ClusterPlan} (hcs : (cs.map (·.name)).Nodup)
    (hnew : ∀ c ∈ cs, c.name ∉ t.clusters.map (·.name)) :
    (withPlans self t cs).clusters.Perm (cs.map (seenCluster self) ++ t.clusters) := by
  induction cs generalizing t with
  | nil => exact .refl _
  | cons c cs ih =>
    obtain ⟨hc, hcs⟩ := List.nodup_cons.1 hcs
    have hstep := t.clusters_withCluster (seenCluster self c) (c.members.map (seenMember self c))
    rw [List.filter_eq_self.2] at hstep
    · refine (ih hcs ?_).trans ?_
      · intro d hd hmem
        rcases List.mem_cons.1 ((hstep.map _).mem_iff.1 hmem) with heq | hmem
        · exact hc (List.mem_map.2 ⟨d, hd, heq⟩)
        · exact hnew d (List.mem_cons_of_mem _ hd) hmem
      · exact (hstep.append_left _).trans List.perm_middle
    · intro d hd
      have hne : d.name ≠ c.name :=
        fun heq => hnew c List.mem_cons_self (List.mem_map.2 ⟨d, hd, heq⟩)
      simpa [Cluster.same, seenCluster] using hne

theorem nodes_withPlans {cs : List ClusterPlan} (hcs : (cs.map (·.name)).Nodup) (name : String) :
    (withPlans self t cs).nodes.get? name =
      match cs.find? (·.name == name) with
      | some c => some (Node.dedup (Node.sort (c.members.map (seenMember self c))))
      | none => t.nodes.get? name := by
  induction cs generalizing t with
  | nil => rfl
  | cons c cs ih =>
    obtain ⟨hc, hcs⟩ := List.nodup_cons.1 hcs
    have hstep : withPlans self t (c :: cs) =
        withPlans self (t.withCluster (seenCluster self c) (c.members.map (seenMember self c)))
          cs := rfl
    rw [hstep, ih hcs, List.find?_cons, nodes_withCluster]
    by_cases hname : c.name = name
    · subst hname
      have hnone : cs.find? (·.name == c.name) = none := by
        rw [List.find?_eq_none]
        intro d hd heq
        exact hc (List.mem_map.2 ⟨d, hd, beq_iff_eq.1 heq⟩)
      simp [hnone, seenCluster]
    · have hbeq : (c.name == name) = false := by simpa using hname
      rw [if_neg (show ¬name = (seenCluster self c).name from Ne.symm hname), hbeq]

theorem clusters_ofEnsemble (he : e.WellFormed) (self : Node) :
    (ofEnsemble e self).clusters.Perm (e.clusters.map (seenCluster self)) := by
  rw [ofEnsemble_eq]
  have hperm : (withPlans self (empty e.partitions) e.clusters).clusters.Perm
      (e.clusters.map (seenCluster self) ++ []) := clusters_withPlans he.clusters (by simp [empty])
  rwa [List.append_nil] at hperm

/-- The members of a cluster are put in order, and none is left out. -/
theorem get?_nodes_ofEnsemble (he : e.WellFormed) (self : Node) {c : ClusterPlan}
    (hc : c ∈ e.clusters) :
    (ofEnsemble e self).nodes.get? c.name =
      some (Node.sort (c.members.map (seenMember self c))) := by
  have hnodup : ((Node.sort (c.members.map (seenMember self c))).map (·.name)).Nodup := by
    rw [((Node.sort_perm _).map _).nodup_iff, seenMember_names]
    exact he.nodup_members hc
  rw [ofEnsemble_eq]
  refine (nodes_withPlans he.clusters c.name).trans ?_
  rw [he.find?_name hc]
  exact congrArg some (Node.dedup_of_nodup hnodup)

/-- All members of a cluster are listed. -/
theorem nodes_ofEnsemble (he : e.WellFormed) (self : Node) {c : ClusterPlan} (hc : c ∈ e.clusters) :
    ∃ ns, (ofEnsemble e self).nodes.get? c.name = some ns ∧
    ns.Perm (c.members.map (seenMember self c)) :=
  ⟨_, get?_nodes_ofEnsemble he self hc, Node.sort_perm _⟩

/-- Nodes are listed under the names of clusters only. -/
theorem cluster_of_nodes_ofEnsemble (he : e.WellFormed) {name : String}
    (h : (ofEnsemble e self).nodes.get? name ≠ none) : ∃ c ∈ e.clusters, c.name = name := by
  cases hfind : e.clusters.find? (·.name == name) with
  | some c => exact ⟨c, List.mem_of_find?_eq_some hfind, by simpa using List.find?_some hfind⟩
  | none =>
    refine absurd ?_ h
    rw [ofEnsemble_eq]
    refine (nodes_withPlans he.clusters name).trans ?_
    rw [hfind]
    rfl

theorem nodes_ofEnsemble_eq_none (he : e.WellFormed) {name : String}
    (hname : name ∉ e.clusters.map (·.name)) : (ofEnsemble e self).nodes.get? name = none := by
  by_contra hsome
  obtain ⟨c, hc, rfl⟩ := cluster_of_nodes_ofEnsemble he hsome
  exact hname (List.mem_map_of_mem hc)

/-- The members of a cluster come in the order of their names, whatever their order in the
configuration. -/
theorem nodes_of_reorders (he : e.WellFormed) (hr : e.Reorders e') (self self' : Node)
    (name : String) : ((ofEnsemble e self).nodes.get? name).map (·.map (·.name)) =
      ((ofEnsemble e' self').nodes.get? name).map (·.map (·.name)) := by
  have he' := he.reorders hr
  by_cases hname : name ∈ e.clusters.map (·.name)
  · obtain ⟨c, hc, rfl⟩ := List.mem_map.1 hname
    obtain ⟨c', hc', hcc', hmembers⟩ := hr.cluster hc
    obtain ⟨ns, hns, hperm⟩ := nodes_ofEnsemble he self hc
    obtain ⟨ms, hms, hperm'⟩ := nodes_ofEnsemble he' self' hc'
    rw [← hcc'] at hms
    rw [hns, hms]
    refine congrArg some (names_eq_of_perm ((ordered_ofEnsemble e self).nodes _ _ hns)
      ((ordered_ofEnsemble e' self').nodes _ _ hms) ?_)
    refine (hperm.map _).trans (.trans ?_ (hperm'.map _).symm)
    rw [seenMember_names, seenMember_names]
    exact hmembers.map _
  · rw [nodes_ofEnsemble_eq_none he hname,
      nodes_ofEnsemble_eq_none he' fun h => hname (hr.names.mem_iff.2 h)]

/-- The tables of two processes that read the configuration in different orders. -/
theorem sameNames_of_reorders (he : e.WellFormed) (hr : e.Reorders e') (self self' : Node) :
    SameNames (ofEnsemble e self) (ofEnsemble e' self') := by
  have hseen : ∀ (self : Node) (cs : List ClusterPlan),
      (cs.map (seenCluster self)).map (·.name) = cs.map (·.name) := fun self cs => by
    rw [List.map_map]
    rfl
  refine ⟨?_, ?_, nodes_of_reorders he hr self self', ?_⟩
  · rw [ofEnsemble_eq, ofEnsemble_eq]
    refine (partitioning_withPlans _ _).trans (.trans ?_ (partitioning_withPlans _ _).symm)
    rw [hr.partitions]
  · refine names_eq_of_perm (ordered_ofEnsemble e self).clusters
      (ordered_ofEnsemble e' self').clusters ?_
    refine ((clusters_ofEnsemble he self).map _).trans ?_
    refine .trans ?_ ((clusters_ofEnsemble (he.reorders hr) self').map _).symm
    rw [hseen, hseen]
    exact hr.names
  · rw [ofEnsemble_eq, ofEnsemble_eq]
    exact hr.pins

/-! ## True pictures -/

/-- The table is a picture of the configuration, as the process of a node sees it. -/
structure Shows (e : Ensemble) (viewer : Node) (t : RoutingTable) : Prop where
  clusters : t.clusters.Perm (e.clusters.map (seenCluster viewer))
  nodes : ∀ c ∈ e.clusters, ∃ ns, t.nodes.get? c.name = some ns ∧
    ns.Perm (c.members.map (seenMember viewer c))
  nothingElse : ∀ name, t.nodes.get? name ≠ none → ∃ c ∈ e.clusters, c.name = name
  pinned : ∀ bucket name, e.pins.get? bucket = some name →
    ∃ c, t.clusterFor bucket = .ok c ∧ c.name = name
  oneLocal : (t.clusters.filter (·.isLocal)).length ≤ 1
  /-- Only the process's own entry, in its own cluster, is in-process. -/
  inProcess : ∀ name ns, t.nodes.get? name = some ns → ∀ n ∈ ns, n.inProcess = true →
    n = viewer ∧ name = viewer.cluster.name
  listed : e.Lists viewer → t.localNode viewer.name = .ok viewer
  unlisted : ¬ e.Lists viewer → t.localNode viewer.name = .error .noLocalCluster

/-- A local cluster is that of the process. -/
theorem name_of_isLocal (he : e.WellFormed) {c : Cluster} (hc : c ∈ (ofEnsemble e self).clusters)
    (hlocal : c.isLocal = true) : c.name = self.cluster.name := by
  obtain ⟨d, -, rfl⟩ := List.mem_map.1 ((clusters_ofEnsemble he self).mem_iff.1 hc)
  exact beq_iff_eq.1 hlocal

theorem local_le_one (he : e.WellFormed) (self : Node) :
    ((ofEnsemble e self).clusters.filter (·.isLocal)).length ≤ 1 := by
  have hnodup : (((ofEnsemble e self).clusters.filter (·.isLocal)).map (·.name)).Nodup :=
    (nodup_of_pairwise_lt (ordered_ofEnsemble e self).clusters).sublist (List.filter_sublist.map _)
  have hname : ∀ c ∈ (ofEnsemble e self).clusters.filter (·.isLocal),
      c.name = self.cluster.name := by
    intro c hc
    obtain ⟨hc, hlocal⟩ := List.mem_filter.1 hc
    exact name_of_isLocal he hc hlocal
  generalize (ofEnsemble e self).clusters.filter (·.isLocal) = l at hnodup hname ⊢
  match l with
  | [] => exact Nat.zero_le _
  | [c] => exact Nat.le_refl _
  | c :: d :: l =>
    have heq : d.name = c.name :=
      (hname d (List.mem_cons_of_mem _ List.mem_cons_self)).trans (hname c List.mem_cons_self).symm
    exact absurd (List.mem_map.2 ⟨d, List.mem_cons_self, heq⟩) (List.nodup_cons.1 hnodup).1

theorem clusterFor_of_pin (he : e.WellFormed) {name : String}
    (hpin : e.pins.get? bucket = some name) :
    ∃ c, (ofEnsemble e self).clusterFor bucket = .ok c ∧ c.name = name := by
  obtain ⟨d, hd, hname⟩ := List.mem_map.1 (he.pins bucket name hpin)
  have hmem : seenCluster self d ∈ (ofEnsemble e self).clusters :=
    (clusters_ofEnsemble he self).mem_iff.2 (List.mem_map_of_mem hd)
  have hpins : (ofEnsemble e self).pins = e.pins := by rw [ofEnsemble_eq]
  exact clusterFor_of_pins (by rw [hpins, hpin]) (List.mem_map.2 ⟨_, hmem, hname⟩)

/-- A member that has the name of the process, in its cluster, is the process. -/
theorem seenMember_eq_self {c : ClusterPlan} {m : Member} (hc : c.name = self.cluster.name)
    (hm : m.name = self.name) : seenMember self c m = self :=
  if_pos (by simp [seenCluster, hc, hm])

theorem localNode_ofEnsemble (he : e.WellFormed) (self : Node) :
    (e.Lists self → (ofEnsemble e self).localNode self.name = .ok self) ∧
    (¬ e.Lists self → (ofEnsemble e self).localNode self.name = .error .noLocalCluster) := by
  unfold localNode localCluster?
  cases hlocal : (ofEnsemble e self).clusters.find? (·.isLocal) with
  | none =>
    refine ⟨?_, fun _ => rfl⟩
    rintro ⟨c, hc, hname, -⟩
    have hmem : seenCluster self c ∈ (ofEnsemble e self).clusters :=
      (clusters_ofEnsemble he self).mem_iff.2 (List.mem_map_of_mem hc)
    exact absurd (List.find?_eq_none.1 hlocal _ hmem) (by simpa [seenCluster] using hname)
  | some d =>
    have hd := List.mem_of_find?_eq_some hlocal
    have hname := name_of_isLocal he hd (List.find?_some hlocal)
    obtain ⟨c, hc, rfl⟩ := List.mem_map.1 ((clusters_ofEnsemble he self).mem_iff.1 hd)
    obtain ⟨ns, hns, hperm⟩ := nodes_ofEnsemble he self hc
    change c.name = self.cluster.name at hname
    have hget : (ofEnsemble e self).nodes.get? (seenCluster self c).name = some ns := hns
    simp only [hget, Option.getD_some]
    cases hfind : ns.find? (·.name == self.name) with
    | none =>
      refine ⟨?_, fun _ => rfl⟩
      rintro ⟨c', hc', hname', m, hm, hself⟩
      obtain rfl := List.inj_on_of_nodup_map he.clusters hc' hc (hname'.trans hname.symm)
      have hmem := hperm.mem_iff.2 (List.mem_map_of_mem hm)
      rw [seenMember_eq_self hname hself] at hmem
      exact absurd (List.find?_eq_none.1 hfind self hmem) (by simp)
    | some n =>
      obtain ⟨m, hm, rfl⟩ := List.mem_map.1 (hperm.mem_iff.1 (List.mem_of_find?_eq_some hfind))
      have hself : m.name = self.name := by
        have hbeq := List.find?_some hfind
        rwa [seenMember_name, beq_iff_eq] at hbeq
      refine ⟨fun _ => congrArg Except.ok (seenMember_eq_self hname hself), fun h => absurd ?_ h⟩
      exact ⟨c, hc, hname, m, hm, hself⟩

theorem shows_ofEnsemble (he : e.WellFormed) (self : Node) : Shows e self (ofEnsemble e self) where
  clusters := clusters_ofEnsemble he self
  nodes _ hc := nodes_ofEnsemble he self hc
  nothingElse _ h := cluster_of_nodes_ofEnsemble he h
  pinned _ _ hpin := clusterFor_of_pin he hpin
  oneLocal := local_le_one he self
  inProcess name ns hns n hn hin := by
    obtain ⟨c, hc, rfl⟩ :=
      cluster_of_nodes_ofEnsemble he (by rw [hns]; exact Option.some_ne_none ns)
    obtain ⟨ms, hms, hperm⟩ := nodes_ofEnsemble he self hc
    rw [hns] at hms
    cases hms
    obtain ⟨m, -, rfl⟩ := List.mem_map.1 (hperm.mem_iff.1 hn)
    unfold seenMember at hin ⊢
    split at hin
    · next hself =>
      rw [if_pos hself]
      rw [Bool.and_eq_true] at hself
      exact ⟨rfl, beq_iff_eq.1 hself.1⟩
    · cases hin
  listed := (localNode_ofEnsemble he self).1
  unlisted := (localNode_ofEnsemble he self).2

/-- **All processes agree on the owners.**  Of an accepted configuration, in whatever order
they read it, any two processes make tables that answer alike, and each table is a true
picture of what its process has read. -/
theorem ofEnsemble_agrees (he : e.validate = .ok ()) (hr : e.Reorders e') (self self' : Node) :
    Agrees (ofEnsemble e self) (ofEnsemble e' self') ∧
    Shows e self (ofEnsemble e self) ∧ Shows e' self' (ofEnsemble e' self') := by
  have he := Ensemble.validate_eq_ok_iff.1 he
  exact ⟨(sameNames_of_reorders he hr self self').agrees, shows_ofEnsemble he self,
    shows_ofEnsemble (he.reorders hr) self'⟩

/-- Two clusters, the larger one first, and a bucket that is pinned to the smaller one. -/
def twoClusters : Ensemble :=
  ⟨16, [⟨"main", [⟨"m2", .v4 [127, 0, 0, 1] 2⟩, ⟨"m1", .v4 [127, 0, 0, 1] 1⟩]⟩,
    ⟨"far", [⟨"f1", .v4 [127, 0, 0, 1] 3⟩]⟩], .ofList [("logs", "far")]⟩

def twoClustersSorted : Ensemble :=
  ⟨16, [⟨"far", [⟨"f1", .v4 [127, 0, 0, 1] 3⟩]⟩,
    ⟨"main", [⟨"m1", .v4 [127, 0, 0, 1] 1⟩, ⟨"m2", .v4 [127, 0, 0, 1] 2⟩]⟩],
      .ofList [("logs", "far")]⟩

/-- A process that is listed, and one that is not. -/
theorem ofEnsemble_agrees_twoClusters : ∃ self self' : Node,
    twoClusters.validate = .ok () ∧ twoClusters.Reorders twoClustersSorted ∧
    twoClusters.Lists self ∧ ¬ twoClustersSorted.Lists self' ∧
    Agrees (ofEnsemble twoClusters self) (ofEnsemble twoClustersSorted self') ∧
    (ofEnsemble twoClusters self).localNode self.name = .ok self ∧
    (ofEnsemble twoClustersSorted self').localNode self'.name = .error .noLocalCluster := by
  have hvalid : twoClusters.validate = .ok () := by decide +kernel
  have hreorders : twoClusters.Reorders twoClustersSorted :=
    ⟨rfl, rfl, _, .swap .., .cons ⟨rfl, .refl _⟩ (.cons ⟨rfl, .swap ..⟩ .nil)⟩
  have hlists : twoClusters.Lists ⟨"m1", .v4 [127, 0, 0, 1] 1, ⟨"main", true⟩, true⟩ :=
    ⟨_, List.mem_cons_self, rfl, _, List.mem_cons_of_mem _ List.mem_cons_self, rfl⟩
  have hnot : ¬ twoClustersSorted.Lists ⟨"m1", .v4 [127, 0, 0, 1] 1, ⟨"far", true⟩, true⟩ := by
    simp [Ensemble.Lists, twoClustersSorted]
  obtain ⟨hagrees, hshows, hshows'⟩ := ofEnsemble_agrees hvalid hreorders
    ⟨"m1", .v4 [127, 0, 0, 1] 1, ⟨"main", true⟩, true⟩
      ⟨"m1", .v4 [127, 0, 0, 1] 1, ⟨"far", true⟩, true⟩
  exact ⟨_, _, hvalid, hreorders, hlists, hnot, hagrees, hshows.listed hlists,
    hshows'.unlisted hnot⟩

end RoutingTable

end BucketCluster
