import BucketCluster.Proofs.Routing.Table
import BucketCluster.Proofs.SortedMap
import Mathlib.Data.List.Nodup

/-!
# How tables are built

A table is built by adding clusters and pins, in any order and any number of times.
Whatever the calls, it lists its clusters and the nodes of each of them strictly by
name (`ordered_built`), so that no name is listed twice and a list is known by its
members.
-/

namespace BucketCluster

/-! ## Lists by name -/

/-- In name order and without a name that comes twice, names increase strictly. -/
theorem pairwise_lt_of_nodup {α : Type} {name : α → String} {l : List α}
    (h : l.Pairwise fun a b => (compare (name a) (name b)).isLE) (hnodup : (l.map name).Nodup) :
    l.Pairwise fun a b => compare (name a) (name b) = .lt := by
  refine (h.and (List.pairwise_map.1 hnodup)).imp ?_
  rintro a b ⟨hle, hne⟩
  cases hcmp : compare (name a) (name b) with
  | lt => rfl
  | eq => exact absurd (Std.LawfulEqCmp.eq_of_compare hcmp) hne
  | gt => rw [hcmp] at hle; cases hle

theorem nodup_of_pairwise_lt {α : Type} {name : α → String} {l : List α}
    (h : l.Pairwise fun a b => compare (name a) (name b) = .lt) : (l.map name).Nodup := by
  refine List.pairwise_map.2 (h.imp ?_)
  intro a b hlt heq
  rw [heq, Std.ReflOrd.compare_self] at hlt
  cases hlt

/-- What increases strictly by name is known by its members. -/
theorem eq_of_pairwise_lt {α : Type} {name : α → String} {l m : List α}
    (hl : l.Pairwise fun a b => compare (name a) (name b) = .lt)
    (hm : m.Pairwise fun a b => compare (name a) (name b) = .lt) (h : ∀ a, a ∈ l ↔ a ∈ m) :
    l = m := by
  have hperm : l.Perm m :=
    (List.perm_ext_iff_of_nodup (List.Nodup.of_map _ (nodup_of_pairwise_lt hl))
    (List.Nodup.of_map _ (nodup_of_pairwise_lt hm))).2 h
  refine hperm.eq_of_pairwise ?_ hl hm
  intro a b _ _ hab hba
  rw [Std.OrientedOrd.eq_swap, hba] at hab
  cases hab

/-- Names that increase strictly are known by their members. -/
theorem names_eq_of_perm {α : Type} {name : α → String} {l m : List α}
    (hl : l.Pairwise fun a b => compare (name a) (name b) = .lt)
    (hm : m.Pairwise fun a b => compare (name a) (name b) = .lt)
    (hp : (l.map name).Perm (m.map name)) : l.map name = m.map name := by
  have hl' : (l.map name).Pairwise fun a b => compare a b = .lt := List.pairwise_map.2 hl
  have hm' : (m.map name).Pairwise fun a b => compare a b = .lt := List.pairwise_map.2 hm
  exact eq_of_pairwise_lt hl' hm' fun _ => hp.mem_iff

/-- Where no name comes twice, each entry is found by its name. -/
theorem find?_name_of_nodup {α : Type} {name : α → String} {l : List α}
    (h : (l.map name).Nodup) {a : α} (ha : a ∈ l) : l.find? (name · == name a) = some a := by
  cases hfind : l.find? (name · == name a) with
  | none => exact absurd (List.find?_eq_none.1 hfind a ha) (by simp)
  | some b =>
    have hname : name b = name a := by simpa using List.find?_some hfind
    rw [List.inj_on_of_nodup_map h (List.mem_of_find?_eq_some hfind) ha hname]

namespace Node

theorem dedupAux_sublist (p : Node) (ns : List Node) : (dedupAux p ns).Sublist ns := by
  induction ns generalizing p with
  | nil => exact .slnil
  | cons n ns ih =>
    unfold dedupAux
    split
    · exact (ih p).cons _
    · exact (ih n).cons_cons _

theorem dedup_sublist (ns : List Node) : (dedup ns).Sublist ns := by
  cases ns with
  | nil => exact .slnil
  | cons n ns => exact (dedupAux_sublist n ns).cons_cons _

/-- Nothing is left out where no name comes twice. -/
theorem dedupAux_of_nodup {p : Node} {ns : List Node} (h : ((p :: ns).map (·.name)).Nodup) :
    dedupAux p ns = ns := by
  induction ns generalizing p with
  | nil => rfl
  | cons n ns ih =>
    rw [List.map_cons, List.nodup_cons] at h
    have hne : p.same n = false := by
      unfold same
      simpa using fun heq => h.1 (List.mem_map.2 ⟨n, List.mem_cons_self, heq.symm⟩)
    rw [dedupAux, hne, if_neg Bool.false_ne_true, ih h.2]

theorem dedup_of_nodup {ns : List Node} (h : (ns.map (·.name)).Nodup) : dedup ns = ns := by
  cases ns with
  | nil => rfl
  | cons n ns => rw [dedup, dedupAux_of_nodup h]

theorem sort_perm (ns : List Node) : (sort ns).Perm ns := List.mergeSort_perm _ _

theorem dedup_sort_pairwise (ns : List Node) :
    (dedup (sort ns)).Pairwise fun a b => compare a.name b.name = .lt :=
  pairwise_lt_of_nodup ((sort_sorted ns).sublist (dedup_sublist _)) (dedup_sort_nodup ns)

end Node

namespace RoutingTable

/-! ## Changes -/

/-- A call to a builder of tables. -/
inductive Change where
  | cluster (c : Cluster) (ns : List Node)
  | pin (bucket cluster : String)

def change (t : RoutingTable) : Change → RoutingTable
  | .cluster c ns => t.withCluster c ns
  | .pin bucket cluster => t.withPin bucket cluster

/-- The table after some changes. -/
def built (partitions : UInt32) (changes : List Change) : RoutingTable :=
  changes.foldl change (empty partitions)

/-- The changes that make the table of an ensemble. -/
def changesOf (e : Ensemble) (self : Node) : List Change :=
  e.clusters.map (fun c => .cluster (seenCluster self c) (c.members.map (seenMember self c))) ++
    e.pins.entries.map fun p => .pin p.1 p.2

theorem ofEnsemble_eq_built (e : Ensemble) (self : Node) :
    ofEnsemble e self = built e.partitions (changesOf e self) := by
  unfold built changesOf
  rw [List.foldl_append, List.foldl_map, List.foldl_map]
  rfl

/-! ## Order -/

/-- Clusters and the nodes of each cluster are listed strictly by name. -/
structure Ordered (t : RoutingTable) : Prop where
  clusters : t.clusters.Pairwise fun a b => compare a.name b.name = .lt
  nodes : ∀ name ns, t.nodes.get? name = some ns →
    ns.Pairwise fun a b => compare a.name b.name = .lt

variable {t : RoutingTable} {bucket name : String}

/-- A cluster is added to those of other names. -/
theorem clusters_withCluster (t : RoutingTable) (c : Cluster) (ns : List Node) :
    (t.withCluster c ns).clusters.Perm (c :: t.clusters.filter fun d => !d.same c) :=
  (List.mergeSort_perm _ _).trans (List.perm_append_singleton _ _)

theorem nodes_withCluster (t : RoutingTable) (c : Cluster) (ns : List Node) (name : String) :
    (t.withCluster c ns).nodes.get? name =
      if name = c.name then some (Node.dedup (Node.sort ns)) else t.nodes.get? name := by
  unfold withCluster
  by_cases hname : name = c.name
  · rw [if_pos hname, hname, SortedMap.get?_insert_self]
  · rw [if_neg hname, SortedMap.get?_insert_of_ne _ _ hname]

theorem ordered_empty (partitions : UInt32) : (empty partitions).Ordered where
  clusters := List.Pairwise.nil
  nodes _ _ h := by cases h

theorem Ordered.withCluster (h : t.Ordered) (c : Cluster) (ns : List Node) :
    (t.withCluster c ns).Ordered := by
  constructor
  · apply pairwise_lt_of_nodup
    · exact List.pairwise_mergeSort isLE_names_trans isLE_names_total _
    · refine (((t.clusters_withCluster c ns).map (·.name)).nodup_iff).2 ?_
      rw [List.map_cons, List.nodup_cons]
      refine ⟨?_, (nodup_of_pairwise_lt h.clusters).sublist (List.filter_sublist.map _)⟩
      intro hmem
      obtain ⟨d, hd, hname⟩ := List.mem_map.1 hmem
      have hne := (List.mem_filter.1 hd).2
      simp [Cluster.same, hname] at hne
  · intro name ms hms
    rw [nodes_withCluster] at hms
    split at hms
    · cases hms
      exact Node.dedup_sort_pairwise ns
    · exact h.nodes name ms hms

theorem Ordered.change (h : t.Ordered) (ch : Change) : (t.change ch).Ordered := by
  cases ch with
  | cluster c ns => exact h.withCluster c ns
  | pin bucket cluster => exact ⟨h.clusters, h.nodes⟩

/-- **Tables are in order**, whatever the calls that built them. -/
theorem ordered_built (partitions : UInt32) (changes : List Change) :
    (built partitions changes).Ordered := by
  have hfold : ∀ (chs : List Change) (t : RoutingTable), t.Ordered →
      (chs.foldl RoutingTable.change t).Ordered := by
    intro chs
    induction chs with
    | nil => exact fun _ h => h
    | cons ch chs ih => exact fun t h => ih _ (h.change ch)
  exact hfold changes _ (ordered_empty partitions)

theorem ordered_ofEnsemble (e : Ensemble) (self : Node) : (ofEnsemble e self).Ordered := by
  rw [ofEnsemble_eq_built]
  exact ordered_built _ _

/-! ## Pins -/

/-- A bucket whose pin names a cluster of the table belongs to it. -/
theorem clusterFor_of_pins (hpin : t.pins.get? bucket = some name)
    (hname : name ∈ t.clusters.map (·.name)) :
    ∃ c, t.clusterFor bucket = .ok c ∧ c.name = name := by
  have hfind : t.pinnedCluster? bucket = t.clusters.find? (·.name == name) := by
    unfold pinnedCluster?
    rw [hpin]
    rfl
  obtain ⟨d, hd, hdname⟩ := List.mem_map.1 hname
  cases hc : t.clusters.find? (·.name == name) with
  | none => exact absurd (List.find?_eq_none.1 hc d hd) (by simpa using hdname)
  | some c =>
    refine ⟨c, ?_, by simpa using List.find?_some hc⟩
    unfold clusterFor
    rw [hfind, hc]

end RoutingTable

end BucketCluster
