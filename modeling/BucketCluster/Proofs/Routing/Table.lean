import BucketCluster.Proofs.SortedMap
import BucketCluster.Routing.Table

/-!
# All processes route alike

The tables that two processes make of one ensemble differ in what they call local,
and in nothing that decides where a key belongs: the nodes of a bucket have the
same names in the same order, and no name twice (`members_ofEnsemble`,
`members_nodup`), and a key has its place among them (`holder`).
-/

namespace BucketCluster

/-! ## Name order -/

section

variable {α : Type} {name : α → String}

theorem isLE_names_trans (a b c : α) (hab : (compare (name a) (name b)).isLE)
    (hbc : (compare (name b) (name c)).isLE) : (compare (name a) (name c)).isLE :=
  Std.TransCmp.isLE_trans hab hbc

theorem isLE_names_total (a b : α) :
    (compare (name a) (name b)).isLE || (compare (name b) (name a)).isLE := by
  have hswap : compare (name b) (name a) = (compare (name a) (name b)).swap :=
    Std.OrientedOrd.eq_swap
  rw [hswap]
  cases compare (name a) (name b) <;> rfl

end

/-! ## Nodes in name order -/

namespace Node

variable {p q : Node} {ns ms : List Node}

theorem dedupAux_names (hp : p.name = q.name) (h : ns.map (·.name) = ms.map (·.name)) :
    (dedupAux p ns).map (·.name) = (dedupAux q ms).map (·.name) := by
  induction ns generalizing p q ms with
  | nil =>
    obtain rfl := List.map_eq_nil_iff.1 h.symm
    rfl
  | cons n ns ih =>
    cases ms with
    | nil => cases h
    | cons m ms =>
      obtain ⟨hn, hns⟩ : n.name = m.name ∧ ns.map (·.name) = ms.map (·.name) := List.cons.inj h
      unfold dedupAux same
      rw [hp, hn]
      split
      · exact ih hp hns
      · rw [List.map_cons, List.map_cons, hn, ih hn hns]

theorem dedup_names (h : ns.map (·.name) = ms.map (·.name)) :
    (dedup ns).map (·.name) = (dedup ms).map (·.name) := by
  cases ns with
  | nil =>
    obtain rfl := List.map_eq_nil_iff.1 h.symm
    rfl
  | cons n ns =>
    cases ms with
    | nil => cases h
    | cons m ms =>
      obtain ⟨hn, hns⟩ : n.name = m.name ∧ ns.map (·.name) = ms.map (·.name) := List.cons.inj h
      rw [dedup, dedup, List.map_cons, List.map_cons, hn, dedupAux_names hn hns]

theorem sort_names (h : ns.map (·.name) = ms.map (·.name)) :
    (sort ns).map (·.name) = (sort ms).map (·.name) := by
  have hsort : ∀ l : List Node, (sort l).map (·.name) =
      (l.map (·.name)).mergeSort fun a b => (compare a b).isLE :=
    fun l => List.map_mergeSort fun _ _ _ _ => rfl
  rw [hsort, hsort, h]

theorem mem_of_mem_dedupAux {n : Node} (h : n ∈ dedupAux p ns) : n ∈ ns := by
  induction ns generalizing p with
  | nil => cases h
  | cons m ns ih =>
    unfold dedupAux at h
    split at h
    · exact List.mem_cons_of_mem _ (ih h)
    · rcases List.mem_cons.1 h with rfl | h
      · exact List.mem_cons_self
      · exact List.mem_cons_of_mem _ (ih h)

theorem mem_of_mem_dedup {n : Node} (h : n ∈ dedup ns) : n ∈ ns := by
  cases ns with
  | nil => cases h
  | cons m ns =>
    rcases List.mem_cons.1 h with rfl | h
    · exact List.mem_cons_self
    · exact List.mem_cons_of_mem _ (mem_of_mem_dedupAux h)

/-- In name order, names that differ from the one before differ from all before. -/
theorem dedupAux_nodup (h : (p :: ns).Pairwise fun a b => (a.order b).isLE) :
    (p.name :: (dedupAux p ns).map (·.name)).Nodup := by
  induction ns generalizing p with
  | nil => simp [dedupAux]
  | cons n ns ih =>
    obtain ⟨hp, hns⟩ := List.pairwise_cons.1 h
    unfold dedupAux
    split
    · exact ih
        (List.pairwise_cons.2 ⟨fun m hm => hp m (List.mem_cons_of_mem _ hm),
          (List.pairwise_cons.1 hns).2⟩)
    · next hne =>
      have hrest := ih hns
      refine List.nodup_cons.2 ⟨?_, hrest⟩
      intro hmem
      rw [List.map_cons, List.mem_cons] at hmem
      rcases hmem with heq | hmem
      · exact hne (by simp [same, heq])
      · -- a name that comes back would stand between two equal ones
        obtain ⟨m, hm, hname⟩ := List.mem_map.1 hmem
        have hpn := hp n List.mem_cons_self
        have hnm := (List.pairwise_cons.1 hns).1 m (mem_of_mem_dedupAux hm)
        unfold order at hpn hnm
        rw [hname] at hnm
        have heq : compare p.name n.name = .eq := Std.OrientedCmp.isLE_antisymm hpn hnm
        exact hne (by simp [same, Std.LawfulEqCmp.eq_of_compare heq])

theorem sort_sorted (ns : List Node) : (sort ns).Pairwise fun a b => (a.order b).isLE :=
  List.pairwise_mergeSort isLE_names_trans isLE_names_total ns

theorem dedup_sort_nodup (ns : List Node) : ((dedup (sort ns)).map (·.name)).Nodup := by
  have hsorted := sort_sorted ns
  cases hs : sort ns with
  | nil => exact List.nodup_nil
  | cons n ms =>
    rw [hs] at hsorted
    exact dedupAux_nodup hsorted

end Node

/-! ## Tables that differ in views only -/

namespace RoutingTable

/-- The tables name the same clusters and nodes in the same order. -/
structure SameNames (t u : RoutingTable) : Prop where
  partitioning : t.partitioning = u.partitioning
  clusters : t.clusters.map (·.name) = u.clusters.map (·.name)
  nodes : ∀ c, (t.nodes.get? c).map (List.map (·.name)) = (u.nodes.get? c).map (List.map (·.name))
  pins : t.pins = u.pins

variable {t u : RoutingTable} {bucket : String}

theorem SameNames.withCluster (h : SameNames t u) {c d : Cluster} {ns ms : List Node}
    (hc : c.name = d.name) (hns : ns.map (·.name) = ms.map (·.name)) :
    SameNames (t.withCluster c ns) (u.withCluster d ms) := by
  refine ⟨h.partitioning, ?_, ?_, h.pins⟩
  · have hsort : ∀ l : List Cluster,
      (l.mergeSort fun a b => (compare a.name b.name).isLE).map (·.name) =
        (l.map (·.name)).mergeSort fun a b => (compare a b).isLE :=
      fun l => List.map_mergeSort fun _ _ _ _ => rfl
    have hfilter : ∀ (l : List Cluster) (c : Cluster),
      ((l.filter fun c' => !c'.same c) ++ [c]).map (·.name) =
        (l.map (·.name)).filter (fun n => !n == c.name) ++ [c.name] := fun l c => by
      rw [List.map_append, List.filter_map]
      rfl
    simp only [RoutingTable.withCluster]
    rw [hsort, hsort, hfilter, hfilter, h.clusters, hc]
  · intro name
    simp only [RoutingTable.withCluster, hc]
    by_cases hname : name = d.name
    · subst hname
      rw [SortedMap.get?_insert_self, SortedMap.get?_insert_self, Option.map_some, Option.map_some,
        Node.dedup_names (Node.sort_names hns)]
    · rw [SortedMap.get?_insert_of_ne _ _ hname, SortedMap.get?_insert_of_ne _ _ hname, h.nodes]

theorem SameNames.withPin (h : SameNames t u) (bucket cluster : String) :
    SameNames (t.withPin bucket cluster) (u.withPin bucket cluster) := by
  refine ⟨h.partitioning, h.clusters, h.nodes, ?_⟩
  simp only [RoutingTable.withPin]
  rw [h.pins]

theorem seenMember_name (self : Node) (c : ClusterPlan) (m : Member) :
    (seenMember self c m).name = m.name := by
  unfold seenMember
  split
  · next h =>
    rw [Bool.and_eq_true] at h
    exact (beq_iff_eq.1 h.2).symm
  · rfl

theorem seenMember_names (self : Node) (c : ClusterPlan) :
    (c.members.map (seenMember self c)).map (·.name) = c.members.map (·.name) := by
  rw [List.map_map]
  exact List.map_congr_left fun m _ => seenMember_name self c m

/-- The tables that two processes make of an ensemble. -/
theorem sameNames_ofEnsemble (e : Ensemble) (self self' : Node) :
    SameNames (ofEnsemble e self) (ofEnsemble e self') := by
  have hclusters : ∀ (cs : List ClusterPlan) (t u : RoutingTable), SameNames t u → SameNames
      (cs.foldl (fun t c => t.withCluster (seenCluster self c) (c.members.map (seenMember self c)))
        t)
      (cs.foldl
        (fun t c => t.withCluster (seenCluster self' c) (c.members.map (seenMember self' c)))
          u) := by
    intro cs
    induction cs with
    | nil => exact fun _ _ h => h
    | cons c cs ih =>
      intro t u h
      refine ih _ _ (h.withCluster rfl ?_)
      rw [seenMember_names, seenMember_names]
  have hpins : ∀ (ps : List (String × String)) (t u : RoutingTable), SameNames t u → SameNames
      (ps.foldl (fun t pin => t.withPin pin.1 pin.2) t)
      (ps.foldl (fun t pin => t.withPin pin.1 pin.2) u) := by
    intro ps
    induction ps with
    | nil => exact fun _ _ h => h
    | cons p ps ih => exact fun t u h => ih _ _ (h.withPin _ _)
  exact hpins _ _ _ (hclusters _ _ _ ⟨rfl, rfl, fun _ => rfl, rfl⟩)

/-! ## The nodes of a bucket -/

/-- The names of the nodes that hold the keys of a bucket. -/
def members (t : RoutingTable) (bucket : String) : List String :=
  match t.clusterNodes bucket with
  | .ok ns => ns.val.map (·.name)
  | .error _ => []

/-- The name of the node that holds a key. -/
def holder (t : RoutingTable) (bucket : String) (k : Key) : Option String :=
  (t.members bucket)[t.ownerIndex bucket (t.members bucket).length k]?

theorem members_of_clusterNodes {ns : { ns : List Node // 0 < ns.length }}
    (h : t.clusterNodes bucket = .ok ns) :
    t.members bucket = ns.val.map (·.name) := by
  unfold members
  rw [h]

/-- The holder of a key is its owner. -/
theorem holder_of_clusterNodes {ns : { ns : List Node // 0 < ns.length }}
    (h : t.clusterNodes bucket = .ok ns) (k : Key) :
    t.holder bucket k = some (t.owner bucket ns k).name := by
  have hlt : t.ownerIndex bucket ns.val.length k < ns.val.length :=
    Partitioning.ownerOf_lt _ ns.property
  rw [holder, members_of_clusterNodes h, List.length_map, List.getElem?_map,
    List.getElem?_eq_getElem hlt]
  rfl

theorem SameNames.pinnedCluster? (h : SameNames t u) (bucket : String) :
    (t.pinnedCluster? bucket).map (·.name) = (u.pinnedCluster? bucket).map (·.name) := by
  unfold RoutingTable.pinnedCluster?
  rw [h.pins]
  cases u.pins.get? bucket with
  | none => rfl
  | some name =>
    have hfind : ∀ l : List Cluster, (l.find? (·.name == name)).map (·.name) =
      (l.map (·.name)).find? (· == name) :=
      fun l => by rw [List.find?_map]; rfl
    change (t.clusters.find? _).map _ = (u.clusters.find? _).map _
    rw [hfind, hfind, h.clusters]

theorem SameNames.clusterFor (h : SameNames t u) (bucket : String) :
    (t.clusterFor bucket).map (·.name) = (u.clusterFor bucket).map (·.name) := by
  have hpinned := h.pinnedCluster? bucket
  have hlen : t.clusters.length = u.clusters.length := by
    have := congrArg List.length h.clusters
    rwa [List.length_map, List.length_map] at this
  unfold RoutingTable.clusterFor
  cases ht : t.pinnedCluster? bucket with
  | some c =>
    cases hu : u.pinnedCluster? bucket with
    | some d =>
      rw [ht, hu] at hpinned
      exact congrArg Except.ok (Option.some.inj hpinned)
    | none => rw [ht, hu] at hpinned; cases hpinned
  | none =>
    cases hu : u.pinnedCluster? bucket with
    | some d => rw [ht, hu] at hpinned; cases hpinned
    | none =>
      by_cases hpos : 0 < t.clusters.length
      · have hget : ∀ (i j : Nat) (hi : i < t.clusters.length) (hj : j < u.clusters.length), i = j →
            (t.clusters.get ⟨i, hi⟩).name = (u.clusters.get ⟨j, hj⟩).name := by
          rintro i j hi hj rfl
          have hmap := congrArg (·[i]?) h.clusters
          simpa [hi, hj] using hmap
        simp only [dif_pos hpos, dif_pos (hlen ▸ hpos)]
        exact congrArg Except.ok (hget _ _ _ _ (by rw [hlen]))
      · simp only [dif_neg hpos, dif_neg (hlen ▸ hpos)]

theorem members_eq (t : RoutingTable) (bucket : String) :
    t.members bucket = match t.clusterFor bucket with
      | .ok c => ((t.nodes.get? c.name).getD []).map Node.name
      | .error _ => [] := by
  unfold RoutingTable.members clusterNodes
  cases t.clusterFor bucket with
  | error e => rfl
  | ok c =>
    change (match t.nodesOf c with
      | .ok ns => ns.val.map Node.name
      | .error _ => []) = _
    unfold nodesOf
    by_cases hpos : 0 < ((t.nodes.get? c.name).getD []).length
    · simp only [dif_pos hpos]
    · simp only [dif_neg hpos]
      rw [List.length_eq_zero_iff.1 (by omega : ((t.nodes.get? c.name).getD []).length = 0)]
      rfl

theorem SameNames.members (h : SameNames t u) (bucket : String) :
    t.members bucket = u.members bucket := by
  have hcluster := h.clusterFor bucket
  rw [members_eq, members_eq]
  cases ht : t.clusterFor bucket with
  | error e =>
    cases hu : u.clusterFor bucket with
    | error e => rfl
    | ok d => rw [ht, hu] at hcluster; cases hcluster
  | ok c =>
    cases hu : u.clusterFor bucket with
    | error e => rw [ht, hu] at hcluster; cases hcluster
    | ok d =>
      rw [ht, hu] at hcluster
      have hname : c.name = d.name := Except.ok.inj hcluster
      have hnodes := h.nodes d.name
      have hgetD (o : Option (List Node)) : (o.getD []).map (·.name) =
          (o.map (List.map (·.name))).getD [] :=
        (Option.getD_map (List.map (·.name)) [] o).symm
      simp only [hname]
      rw [hgetD, hgetD, hnodes]

theorem SameNames.holder (h : SameNames t u) (bucket : String) (k : Key) :
    t.holder bucket k = u.holder bucket k := by
  unfold RoutingTable.holder ownerIndex
  rw [h.members, h.partitioning]

/-! ## Distinct nodes -/

/-- The nodes of no cluster share a name, and all of them have a name from the list. -/
def Distinct (names : List String) (t : RoutingTable) : Prop :=
  ∀ c ns, t.nodes.get? c = some ns → (ns.map (·.name)).Nodup ∧ ∀ n ∈ ns, n.name ∈ names

theorem Distinct.withCluster {names : List String} (h : t.Distinct names) (c : Cluster)
    {ns : List Node} (hns : ∀ n ∈ ns, n.name ∈ names) : (t.withCluster c ns).Distinct names := by
  intro name ms hms
  simp only [RoutingTable.withCluster] at hms
  by_cases hname : name = c.name
  · subst hname
    rw [SortedMap.get?_insert_self] at hms
    obtain rfl := Option.some.inj hms
    exact ⟨Node.dedup_sort_nodup ns,
      fun n hn => hns n (List.mem_mergeSort.1 (Node.mem_of_mem_dedup hn))⟩
  · rw [SortedMap.get?_insert_of_ne _ _ hname] at hms
    exact h name ms hms

theorem distinct_ofEnsemble (e : Ensemble) (self : Node) :
    (ofEnsemble e self).Distinct (e.members.map (·.name)) := by
  have hclusters : ∀ (cs : List ClusterPlan) (t : RoutingTable), (∀ c ∈ cs, c ∈ e.clusters) →
      t.Distinct (e.members.map (·.name)) →
      (cs.foldl (fun t c => t.withCluster (seenCluster self c) (c.members.map (seenMember self c)))
          t).Distinct
        (e.members.map (·.name)) := by
    intro cs
    induction cs with
    | nil => exact fun _ _ h => h
    | cons c cs ih =>
      intro t hcs h
      refine ih _ (fun d hd => hcs d (List.mem_cons_of_mem _ hd)) (h.withCluster _ ?_)
      intro n hn
      obtain ⟨m, hm, rfl⟩ := List.mem_map.1 hn
      rw [seenMember_name]
      exact List.mem_map_of_mem (List.mem_flatMap.2 ⟨c, hcs c List.mem_cons_self, hm⟩)
  have hpins : ∀ (ps : List (String × String)) (t : RoutingTable),
    t.Distinct (e.members.map (·.name)) →
      (ps.foldl (fun t pin => t.withPin pin.1 pin.2) t).Distinct (e.members.map (·.name)) := by
    intro ps
    induction ps with
    | nil => exact fun _ h => h
    | cons p ps ih => exact fun t h => ih _ h
  exact hpins _ _ (hclusters _ _ (fun _ h => h) fun c ns h => by cases h)

theorem Distinct.members {names : List String} (h : t.Distinct names) (bucket : String) :
    (t.members bucket).Nodup ∧ ∀ n ∈ t.members bucket, n ∈ names := by
  rw [members_eq]
  cases t.clusterFor bucket with
  | error e => exact ⟨List.nodup_nil, fun n hn => by cases hn⟩
  | ok c =>
    simp only
    cases hns : t.nodes.get? c.name with
    | none => exact ⟨List.nodup_nil, fun n hn => by cases hn⟩
    | some ns =>
      obtain ⟨hnodup, hnames⟩ := h c.name ns hns
      refine ⟨hnodup, ?_⟩
      intro n hn
      obtain ⟨m, hm, rfl⟩ := List.mem_map.1 hn
      exact hnames m hm

/-! ## Shares of a set of keys -/

/-- A node holds a key if its place is that of the key. -/
theorem holder_eq_some_iff {ns : { ns : List Node // 0 < ns.length }}
    (h : t.clusterNodes bucket = .ok ns) (hnodup : (t.members bucket).Nodup) {n : Node} {i : Nat}
    (hi : ns.val[i]? = some n) (k : Key) :
    (t.holder bucket k == some n.name) = (t.ownerIndex bucket ns.val.length k == i) := by
  have hmembers := members_of_clusterNodes h
  have hn : (t.members bucket)[i]? = some n.name := by rw [hmembers, List.getElem?_map, hi]; rfl
  have hlt := (List.getElem?_eq_some_iff.1 hn).1
  rw [Bool.eq_iff_iff, beq_iff_eq, beq_iff_eq, holder, hmembers, List.length_map, ← hmembers]
  refine ⟨?_, fun hk => by rw [hk, hn]⟩
  intro hk
  exact ((List.getElem?_inj hlt hnodup).1 (hn.trans hk.symm)).symm

theorem share_names_sublist (share : Nat → KeySet) (l : List (Node × Nat)) :
    ((l.filterMap fun (n, i) => if (share i).isEmpty then none else some (n, share i)).map
        (·.1.name)).Sublist
      (l.map (·.1.name)) := by
  induction l with
  | nil => exact .slnil
  | cons x l ih =>
    rw [List.filterMap_cons]
    by_cases hempty : (share x.2).isEmpty = true
    · simp only [hempty, if_true]
      exact ih.cons _
    · simp only [hempty]
      exact ih.cons_cons _

/-- The shares that go out: each to a node of the bucket, no two to the same, and all keys
are in one. -/
theorem nodesFor_of_clusterNodes {ns : { ns : List Node // 0 < ns.length }}
    (h : t.clusterNodes bucket = .ok ns) (hnodup : (t.members bucket).Nodup) (ks : KeySet) :
    ∃ shares, t.nodesFor bucket ks = .ok shares ∧ (shares.map (·.1.name)).Nodup ∧
      (∀ share ∈ shares, share.1.name ∈ t.members bucket ∧
        share.2 = ks.filter fun k _ => t.holder bucket k == some share.1.name) ∧
      ∀ k, ks.contains k = true → ∃ share ∈ shares, t.holder bucket k = some share.1.name := by
  have hmembers := members_of_clusterNodes h
  let share (i : Nat) : KeySet := ks.filter fun k _ => t.ownerIndex bucket ns.val.length k == i
  have hshare : ∀ {n : Node} {i : Nat}, (n, i) ∈ ns.val.zipIdx →
      share i = ks.filter fun k _ => t.holder bucket k == some n.name := fun hn => by
    simp only [share, holder_eq_some_iff h hnodup (List.mem_zipIdx_iff_getElem?.1 hn)]
  refine ⟨ns.val.zipIdx.filterMap fun (n, i) => if (share i).isEmpty then none else some
    (n, share i), ?_, ?_, ?_, ?_⟩
  · unfold nodesFor
    rw [h]
    rfl
  · have hsub := share_names_sublist share ns.val.zipIdx
    have hnames : ns.val.zipIdx.map (·.1.name) = (ns.val.zipIdx.map (·.1)).map (·.name) := by
      rw [List.map_map]
      rfl
    rw [hnames, List.zipIdx_map_fst, ← hmembers] at hsub
    exact hnodup.sublist hsub
  · intro sh hsh
    obtain ⟨⟨n, i⟩, hn, hsome⟩ := List.mem_filterMap.1 hsh
    by_cases hempty : (share i).isEmpty = true
    · simp [hempty] at hsome
    · simp only [hempty] at hsome
      obtain rfl := Option.some.inj hsome
      refine ⟨?_, hshare hn⟩
      rw [hmembers]
      exact List.mem_map_of_mem (List.mem_of_getElem? (List.mem_zipIdx_iff_getElem?.1 hn))
  · intro k hk
    let i := t.ownerIndex bucket ns.val.length k
    have hi : i < ns.val.length := Partitioning.ownerOf_lt _ ns.property
    have hget : ns.val[i]? = some (t.owner bucket ns k) := List.getElem?_eq_getElem hi
    have hkey : (share i).contains k = true := by
      rw [SortedMap.contains, SortedMap.get?_filter]
      cases hks : ks.get? k with
      | none => simp [SortedMap.contains, hks] at hk
      | some v => simp [Option.filter, i]
    have hempty : (share i).isEmpty = false := by
      obtain ⟨v, hv⟩ := SortedMap.contains_iff.1 hkey
      unfold SortedMap.isEmpty
      cases hes : (share i).entries with
      | nil => rw [hes] at hv; cases hv
      | cons e es => rfl
    refine ⟨(t.owner bucket ns k, share i), List.mem_filterMap.2 ⟨(t.owner bucket ns k, i), ?_, ?_⟩,
      holder_of_clusterNodes h k⟩
    · exact List.mem_zipIdx_iff_getElem?.2 hget
    · simp only [hempty]
      rfl

end RoutingTable

end BucketCluster
