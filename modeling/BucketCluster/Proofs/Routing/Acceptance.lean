import BucketCluster.Proofs.Routing.Agreement

/-!
# What acceptance is good for

Building a table puts a later cluster in the place of an earlier one of its name, and
leaves out nodes whose name has come before, without a word.  Neither happens with a
configuration that has been accepted: all clusters and all members that it names are in
the table (`complete_ofEnsemble`).
-/

namespace BucketCluster

namespace RoutingTable

variable {e : Ensemble}

/-- The table has all that is configured, as the process of a node sees it, and as often. -/
structure Complete (e : Ensemble) (viewer : Node) (t : RoutingTable) : Prop where
  clusters : t.clusters.Perm (e.clusters.map (seenCluster viewer))
  nodes : ∀ c ∈ e.clusters, ∃ ns, t.nodes.get? c.name = some ns ∧
    ns.Perm (c.members.map (seenMember viewer c))
  clusterCount : t.clusters.length = e.clusters.length
  nodeCount : t.nodeCount = e.members.length

/-- There is one list of nodes for each configured cluster. -/
theorem entries_nodes_ofEnsemble (he : e.WellFormed) (self : Node) :
    (ofEnsemble e self).nodes.entries.Perm
      (e.clusters.map fun c => (c.name, Node.sort (c.members.map (seenMember self c)))) := by
  have hnodup :
      (e.clusters.map fun c => (c.name, Node.sort (c.members.map (seenMember self c)))).Nodup := by
    refine List.Nodup.of_map Prod.fst ?_
    rw [List.map_map]
    exact he.clusters
  refine (List.perm_ext_iff_of_nodup (ofEnsemble e self).nodes.sorted.nodup hnodup).2 ?_
  rintro ⟨name, ns⟩
  rw [← SortedMap.get?_eq_some, List.mem_map]
  constructor
  · intro hns
    obtain ⟨c, hc, rfl⟩ :=
      cluster_of_nodes_ofEnsemble he (by rw [hns]; exact Option.some_ne_none ns)
    rw [get?_nodes_ofEnsemble he self hc] at hns
    exact ⟨c, hc, by rw [Option.some.inj hns]⟩
  · rintro ⟨c, hc, heq⟩
    cases heq
    exact get?_nodes_ofEnsemble he self hc

theorem nodeCount_ofEnsemble (he : e.WellFormed) (self : Node) :
    (ofEnsemble e self).nodeCount = e.members.length := by
  have hlengths := (entries_nodes_ofEnsemble he self).map fun entry => entry.2.length
  rw [List.map_map] at hlengths
  have hsort : ∀ c : ClusterPlan, (Node.sort (c.members.map (seenMember self c))).length =
      c.members.length :=
    fun c => by rw [(Node.sort_perm _).length_eq, List.length_map]
  calc (ofEnsemble e self).nodeCount
      = (((ofEnsemble e self).nodes.entries.map (·.2)).map (·.length)).sum := rfl
    _ =
      ((ofEnsemble e self).nodes.entries.map fun entry =>
        entry.2.length).sum := by rw [List.map_map]; rfl
    _ = (e.clusters.map fun c => (Node.sort (c.members.map (seenMember self c))).length).sum :=
      hlengths.sum_nat
    _ = (e.clusters.map fun c => c.members.length).sum := by simp only [hsort]
    _ = e.members.length := List.length_flatMap.symm

/-- Nothing that is configured gets lost. -/
theorem complete_ofEnsemble (he : e.WellFormed) (self : Node) :
    Complete e self (ofEnsemble e self) where
  clusters := clusters_ofEnsemble he self
  nodes _ hc := nodes_ofEnsemble he self hc
  clusterCount := by rw [(clusters_ofEnsemble he self).length_eq, List.length_map]
  nodeCount := nodeCount_ofEnsemble he self

end RoutingTable

namespace Ensemble

open RoutingTable

/-- **What is accepted.**  A configuration is accepted exactly if it is well-formed; one
that is refused has the fault that the refusal names; and whoever builds a table of one that
is accepted has all of it in the table. -/
theorem validate_exact (e : Ensemble) :
    (e.validate = .ok () ↔ e.WellFormed) ∧
    (∀ err, e.validate = .error err → e.Has err) ∧
    (e.validate = .ok () → ∀ self, Complete e self (ofEnsemble e self)) :=
  ⟨validate_eq_ok_iff, fun _ => has_of_validate,
    fun h self => complete_ofEnsemble (validate_eq_ok_iff.1 h) self⟩

/-- The two clusters have a member of the same name. -/
def sharedMember : Ensemble :=
  ⟨16, [⟨"main", [⟨"m1", .v4 [127, 0, 0, 1] 1⟩]⟩, ⟨"far", [⟨"m1", .v4 [127, 0, 0, 1] 3⟩]⟩], ∅⟩

/-- One configuration is accepted, and all of it is in the table of a process outside; the
other is refused. -/
theorem validate_exact_sharedMember : ∃ viewer : Node,
    twoClusters.validate = .ok () ∧ twoClusters.WellFormed ∧
    (ofEnsemble twoClusters viewer).clusters.length = 2 ∧
    (ofEnsemble twoClusters viewer).nodeCount = 3 ∧
    sharedMember.validate = .error (.duplicateNode "m1") ∧ sharedMember.Has (.duplicateNode "m1") ∧
    ¬sharedMember.WellFormed := by
  have hvalid : twoClusters.validate = .ok () := by decide +kernel
  have hrefused : sharedMember.validate = .error (.duplicateNode "m1") := by decide +kernel
  obtain ⟨haccepted, -, htable⟩ := validate_exact twoClusters
  obtain ⟨hwhen, hfault, -⟩ := validate_exact sharedMember
  have hcomplete := htable hvalid ⟨"m1", .v4 [127, 0, 0, 1] 1, ⟨"far", true⟩, true⟩
  refine ⟨_, hvalid, haccepted.1 hvalid, hcomplete.clusterCount, hcomplete.nodeCount, hrefused,
    hfault _ hrefused, fun h => ?_⟩
  rw [hwhen.2 h] at hrefused
  cases hrefused

end Ensemble

end BucketCluster
