import BucketCluster.Proofs.Routing.Building
import Mathlib.Data.List.Nodup

/-!
# Keys split among nodes

A set of keys goes to the owners of its keys, each with a share of its own.  In every
table, however it was built, the shares are those of a split (`Splits`): no node has
two, none is empty, and each key is in exactly one share, that of the node which is
found for the key alone (`nodesFor_splits`).

The shares could as well be gathered key by key, in a map in which a node is found by
its name (`gathered`).  There is only one way to split, up to the order of the shares
(`Splits.perm`), so this makes no difference.
-/

namespace BucketCluster

/-! ## Splits -/

/-- The keys are split among the nodes that they belong to. -/
structure Splits (belongs : Key → Node → Prop) (ks : KeySet) (shares : List (Node × KeySet)) :
    Prop where
  /-- No node has two shares. -/
  distinct : (shares.map (·.1.name)).Nodup
  nonempty : ∀ s ∈ shares, s.2.isEmpty = false
  disjoint : shares.Pairwise fun s s' => ∀ k, s.2.contains k = true → s'.2.contains k = false
  union : ∀ k, ks.contains k = true ↔ ∃ s ∈ shares, s.2.contains k = true
  belong : ∀ s ∈ shares, ∀ k, s.2.contains k = true → belongs k s.1

variable {belongs : Key → Node → Prop} {ks : KeySet} {shares shares' : List (Node × KeySet)}

/-- Shares of different nodes are disjoint if keys belong to one node. -/
theorem disjoint_of_belong (hone : ∀ k n m, belongs k n → belongs k m → n = m)
    (distinct : (shares.map (·.1.name)).Nodup)
    (belong : ∀ s ∈ shares, ∀ k, s.2.contains k = true → belongs k s.1) :
    shares.Pairwise fun s s' => ∀ k, s.2.contains k = true → s'.2.contains k = false := by
  refine (List.pairwise_map.1 distinct).imp_of_mem ?_
  intro s s' hs hs' hne k hk
  cases hk' : s'.2.contains k with
  | false => rfl
  | true =>
    exact absurd (congrArg Node.name (hone k _ _ (belong s hs k hk) (belong s' hs' k hk'))) hne

/-- A share of one split is a share of every other one. -/
theorem Splits.mem (hone : ∀ k n m, belongs k n → belongs k m → n = m)
    (h : Splits belongs ks shares) (h' : Splits belongs ks shares') {s : Node × KeySet}
    (hs : s ∈ shares) : s ∈ shares' := by
  obtain ⟨k, hk⟩ := SortedMap.isEmpty_eq_false_iff.1 (h.nonempty s hs)
  obtain ⟨s', hs', hk'⟩ := (h'.union k).1 ((h.union k).2 ⟨s, hs, hk⟩)
  have hnode : s.1 = s'.1 := hone k _ _ (h.belong s hs k hk) (h'.belong s' hs' k hk')
  -- a key of one share is in the share that the other split has for the same node
  have hsub : ∀ {shares shares' : List (Node × KeySet)}, Splits belongs ks shares →
    Splits belongs ks shares' →
      ∀ {s s'}, s ∈ shares → s' ∈ shares' → s.1 = s'.1 → ∀ k, s.2.contains k = true →
        s'.2.contains k = true := by
    intro shares shares' h h' s s' hs hs' hnode k hk
    obtain ⟨s'', hs'', hk''⟩ := (h'.union k).1 ((h.union k).2 ⟨s, hs, hk⟩)
    have hname : s''.1.name = s'.1.name := by
      rw [hone k _ _ (h'.belong s'' hs'' k hk'') (h.belong s hs k hk), hnode]
    rwa [List.inj_on_of_nodup_map h'.distinct hs'' hs' hname] at hk''
  have hkeys : s.2 = s'.2 :=
    SortedSet.ext_contains fun k => ⟨hsub h h' hs hs' hnode k, hsub h' h hs' hs hnode.symm k⟩
  rwa [show s = s' from Prod.ext hnode hkeys]

/-- There is one way to split. -/
theorem Splits.perm (hone : ∀ k n m, belongs k n → belongs k m → n = m)
    (h : Splits belongs ks shares) (h' : Splits belongs ks shares') : shares.Perm shares' :=
  (List.perm_ext_iff_of_nodup (.of_map _ h.distinct) (.of_map _ h'.distinct)).2
    fun _ => ⟨h.mem hone h', h'.mem hone h⟩

/-! ## Gathering key by key -/

/-- Adds a key to the share of a node, which is found by its name. -/
def addTo (n : Node) (k : Key) : List (Node × KeySet) → List (Node × KeySet)
  | [] => [(n, (∅ : KeySet).insert k ())]
  | (m, ks) :: shares =>
    if m.same n then (m, ks.insert k ()) :: shares else (m, ks) :: addTo n k shares

/-- The shares that come about when one key after the other goes to its owner. -/
def gathered (owner : Key → Node) (ks : List Key) : List (Node × KeySet) :=
  ks.foldl (fun shares k => addTo (owner k) k shares) []

variable {n : Node} {k : Key} {owner : Key → Node}

theorem names_addTo (n : Node) (k : Key) (shares : List (Node × KeySet)) :
    (addTo n k shares).map (·.1.name) =
      if n.name ∈ shares.map (·.1.name) then shares.map (·.1.name) else shares.map (·.1.name) ++
        [n.name] := by
  induction shares with
  | nil => rfl
  | cons s shares ih =>
    obtain ⟨m, ks⟩ := s
    unfold addTo
    by_cases hs : m.name = n.name
    · simp [Node.same, hs]
    · rw [if_neg (by simpa [Node.same] using hs), List.map_cons, ih, List.map_cons]
      by_cases hn : n.name ∈ shares.map (·.1.name)
      · rw [if_pos hn, if_pos (List.mem_cons_of_mem _ hn)]
      · rw [if_neg hn, if_neg (by simpa [Ne.symm hs] using hn), List.cons_append]

/-- A share is one of another node, or the one that the key was added to, or a new one. -/
theorem mem_addTo {s : Node × KeySet} (hd : (shares.map (·.1.name)).Nodup) :
    s ∈ addTo n k shares ↔ (s ∈ shares ∧ s.1.name ≠ n.name) ∨
      (∃ ks, (s.1, ks) ∈ shares ∧ s.1.name = n.name ∧ s.2 = ks.insert k ()) ∨
      (s = (n, (∅ : KeySet).insert k ()) ∧ n.name ∉ shares.map (·.1.name)) := by
  induction shares with
  | nil => simp [addTo]
  | cons r shares ih =>
    obtain ⟨m, ks⟩ := r
    obtain ⟨hm, hd⟩ := List.nodup_cons.1 hd
    have hout : ∀ s ∈ shares, s.1.name ≠ m.name := fun s hs heq => hm (List.mem_map.2 ⟨s, hs, heq⟩)
    unfold addTo
    by_cases hn : m.name = n.name
    · rw [if_pos (by simpa [Node.same] using hn)]
      simp only [List.mem_cons, List.map_cons, hn, true_or, not_true_eq_false, and_false, or_false]
      constructor
      · rintro (rfl | hs)
        · exact .inr ⟨ks, .inl rfl, hn, rfl⟩
        · exact .inl ⟨.inr hs, hn ▸ hout _ hs⟩
      · rintro (⟨rfl | hs, hne⟩ | ⟨ks', hs, hname, hks⟩)
        · exact absurd hn hne
        · exact .inr hs
        · rcases hs with heq | hs
          · obtain ⟨hnode, rfl⟩ := Prod.mk.inj heq
            exact .inl (Prod.ext hnode hks)
          · exact absurd (hname.trans hn.symm) (hout (s.1, ks') hs)
    · rw [if_neg (by simpa [Node.same] using hn), List.mem_cons, ih hd]
      simp only [List.mem_cons, List.map_cons, not_or]
      constructor
      · rintro (rfl | ⟨hs, hne⟩ | ⟨ks', hs, hname, hks⟩ | ⟨rfl, hnew⟩)
        · exact .inl ⟨.inl rfl, hn⟩
        · exact .inl ⟨.inr hs, hne⟩
        · exact .inr (.inl ⟨ks', .inr hs, hname, hks⟩)
        · exact .inr (.inr ⟨rfl, Ne.symm hn, hnew⟩)
      · rintro (⟨rfl | hs, hne⟩ | ⟨ks', heq | hs, hname, hks⟩ | ⟨rfl, -, hnew⟩)
        · exact .inl rfl
        · exact .inr (.inl ⟨hs, hne⟩)
        · exact absurd ((congrArg (·.1.name) heq).symm.trans hname) hn
        · exact .inr (.inr (.inl ⟨ks', hs, hname, hks⟩))
        · exact .inr (.inr (.inr ⟨rfl, hnew⟩))

/-- One key is added, and none is lost. -/
theorem contains_addTo {k' : Key} : (∃ s ∈ addTo n k shares, s.2.contains k' = true) ↔
    k' = k ∨ ∃ s ∈ shares, s.2.contains k' = true := by
  induction shares with
  | nil =>
    have hnone : (∅ : KeySet).contains k' = false := rfl
    simp [addTo, SortedMap.contains_insert, hnone]
  | cons r shares ih =>
    obtain ⟨m, ks⟩ := r
    unfold addTo
    split
    · simp only [List.exists_mem_cons_iff, SortedMap.contains_insert, or_assoc]
    · simp only [List.exists_mem_cons_iff, ih]
      exact or_left_comm

/-- One key more is gathered. -/
theorem Splits.addTo (howner : ∀ k k', (owner k).name = (owner k').name → owner k = owner k')
    (h : Splits (fun k n => owner k = n) ks shares) (k : Key) :
    Splits (fun k n => owner k = n) (ks.insert k ()) (addTo (owner k) k shares) := by
  have hmem (s : Node × KeySet) := mem_addTo (n := owner k) (k := k) (s := s) h.distinct
  have hdistinct : ((BucketCluster.addTo (owner k) k shares).map (·.1.name)).Nodup := by
    rw [names_addTo]
    split
    · exact h.distinct
    · next hnew =>
        exact List.nodup_append.2 ⟨h.distinct, by simp, fun a ha b hb hab => hnew (by simp_all)⟩
  have hbelong : ∀ s ∈ BucketCluster.addTo (owner k) k shares, ∀ k', s.2.contains k' = true →
      owner k' = s.1 := by
    intro s hs k' hk'
    rcases (hmem s).1 hs with ⟨hold, -⟩ | ⟨ks', hold, hname, hks⟩ | ⟨rfl, -⟩
    · exact h.belong s hold k' hk'
    · rw [hks, SortedMap.contains_insert] at hk'
      rcases hk' with rfl | hk'
      · -- the share has an owner already, of the same name
        obtain ⟨k₀, hk₀⟩ := SortedMap.isEmpty_eq_false_iff.1 (h.nonempty _ hold)
        have howns : owner k₀ = s.1 := h.belong _ hold k₀ hk₀
        rw [← howns] at hname ⊢
        exact howner _ _ hname.symm
      · exact h.belong _ hold k' hk'
    · rw [SortedMap.contains_insert] at hk'
      rcases hk' with rfl | hk'
      · rfl
      · cases hk'
  refine ⟨hdistinct, ?_, disjoint_of_belong (fun _ _ _ hn hm => hn.symm.trans hm) hdistinct hbelong,
    ?_, hbelong⟩
  · intro s hs
    rw [SortedMap.isEmpty_eq_false_iff]
    rcases (hmem s).1 hs with ⟨hs, -⟩ | ⟨ks', -, -, hks⟩ | ⟨rfl, -⟩
    · exact SortedMap.isEmpty_eq_false_iff.1 (h.nonempty s hs)
    · exact ⟨k, by rw [hks, SortedMap.contains_insert]; exact .inl rfl⟩
    · exact ⟨k, by rw [SortedMap.contains_insert]; exact .inl rfl⟩
  · intro k'
    rw [SortedMap.contains_insert, h.union, contains_addTo]

theorem splits_nil : Splits belongs ∅ [] where
  distinct := List.nodup_nil
  nonempty _ h := by cases h
  disjoint := List.Pairwise.nil
  union k := by simp [SortedMap.contains]
  belong _ h := by cases h

/-- Gathering key by key splits the keys, if owners are known by their names. -/
theorem splits_gathered (howner : ∀ k k', (owner k).name = (owner k').name → owner k = owner k')
    (ks : KeySet) : Splits (fun k n => owner k = n) ks (gathered owner ks.keys) := by
  have hfold : ∀ (keys : List Key) (acc : KeySet) (shares : List (Node × KeySet)),
      Splits (fun k n => owner k = n) acc shares →
      Splits (fun k n => owner k = n) (acc.insertAll (keys.map (·, ())))
        (keys.foldl (fun shares k => addTo (owner k) k shares) shares) := by
    intro keys
    induction keys with
    | nil => exact fun _ _ h => h
    | cons k keys ih => exact fun acc shares h => ih _ _ (h.addTo howner k)
  have hall := hfold ks.keys ∅ [] splits_nil
  rwa [show (∅ : KeySet).insertAll (ks.keys.map (·, ())) = ks from
    SortedSet.ofElements_keys ks] at hall

/-! ## Tables -/

namespace RoutingTable

variable {t : RoutingTable} {bucket : String} {ns : { ns : List Node // 0 < ns.length }}

/-- The owner of a key stands at the place of the key. -/
theorem getElem?_owner (t : RoutingTable) (bucket : String)
    (ns : { ns : List Node // 0 < ns.length }) (k : Key) :
    ns.val[t.ownerIndex bucket ns.val.length k]? = some (t.owner bucket ns k) :=
  List.getElem?_eq_getElem (Partitioning.ownerOf_lt _ ns.property)

theorem nodeFor_of_clusterNodes (h : t.clusterNodes bucket = .ok ns) (k : Key) :
    t.nodeFor bucket k = .ok (t.owner bucket ns k) := by
  unfold nodeFor
  rw [h]
  rfl

/-- A bucket without a pin goes to the cluster in its slot. -/
theorem clusterFor_of_slot (hpin : t.pinnedCluster? bucket = none) (hne : t.clusters ≠ []) :
    ∃ c, t.clusters[Partitioning.slotOf bucket t.clusters.length]? = some c ∧
    t.clusterFor bucket = .ok c := by
  have hpos := List.length_pos_iff.2 hne
  refine ⟨_, List.getElem?_eq_getElem (Partitioning.slotOf_lt bucket hpos), ?_⟩
  unfold clusterFor
  rw [hpin]
  simp only [dif_pos hpos]
  rfl

/-- The nodes of a bucket have different names. -/
theorem Ordered.nodup_of_clusterNodes (h : t.Ordered) (hns : t.clusterNodes bucket = .ok ns) :
    (ns.val.map (·.name)).Nodup := by
  rw [← members_of_clusterNodes hns, members_eq]
  cases t.clusterFor bucket with
  | error e => exact List.nodup_nil
  | ok c =>
    simp only
    cases hget : t.nodes.get? c.name with
    | none => exact List.nodup_nil
    | some ms => exact nodup_of_pairwise_lt (h.nodes _ ms hget)

/-- A share is that of the node at a place: the keys whose place it is. -/
theorem mem_nodesFor (h : t.clusterNodes bucket = .ok ns) (hs : t.nodesFor bucket ks = .ok shares)
    {s : Node × KeySet} : s ∈ shares ↔ ∃ i, ns.val[i]? = some s.1 ∧ s.2.isEmpty = false ∧
      s.2 = ks.filter fun k _ => t.ownerIndex bucket ns.val.length k == i := by
  unfold nodesFor at hs
  rw [h] at hs
  cases hs
  rw [List.mem_filterMap]
  constructor
  · rintro ⟨⟨n, i⟩, hn, hsome⟩
    simp only at hsome
    split at hsome
    · cases hsome
    · next hempty =>
      cases hsome
      exact ⟨i, List.mem_zipIdx_iff_getElem?.1 hn, by simpa using hempty, rfl⟩
  · rintro ⟨i, hn, hempty, hs⟩
    refine ⟨(s.1, i), List.mem_zipIdx_iff_getElem?.2 hn, ?_⟩
    simp only [← hs, hempty]
    rfl

/-- The shares of a table split the keys. -/
theorem Ordered.splits_nodesFor (ht : t.Ordered) (h : t.clusterNodes bucket = .ok ns)
    (hs : t.nodesFor bucket ks = .ok shares) :
    Splits (fun k n => t.owner bucket ns k = n) ks shares := by
  have hmem (s : Node × KeySet) := mem_nodesFor (s := s) h hs
  have hnodup := ht.nodup_of_clusterNodes h
  have hdistinct : (shares.map (·.1.name)).Nodup := by
    obtain ⟨shares', hs', hd, -⟩ :=
      nodesFor_of_clusterNodes h (by rwa [members_of_clusterNodes h]) ks
    cases hs.symm.trans hs'
    exact hd
  have hbelong : ∀ s ∈ shares, ∀ k, s.2.contains k = true → t.owner bucket ns k = s.1 := by
    intro s hs k hk
    obtain ⟨i, hi, -, hshare⟩ := (hmem s).1 hs
    rw [hshare, SortedMap.contains_filter, Bool.and_eq_true, beq_iff_eq] at hk
    have hget := t.getElem?_owner bucket ns k
    rw [hk.2, hi] at hget
    exact (Option.some.inj hget).symm
  refine ⟨hdistinct, ?_, disjoint_of_belong (fun _ _ _ hn hm => hn.symm.trans hm) hdistinct hbelong,
    ?_, hbelong⟩
  · intro s hs
    obtain ⟨-, -, hempty, -⟩ := (hmem s).1 hs
    exact hempty
  · intro k
    constructor
    · intro hk
      have hshare : (ks.filter fun k' _ =>
          t.ownerIndex bucket ns.val.length k' == t.ownerIndex bucket ns.val.length k).contains k =
            true := by
        rw [SortedMap.contains_filter, hk, beq_self_eq_true, Bool.and_self]
      exact ⟨_, (hmem (_, _)).2
        ⟨_, t.getElem?_owner bucket ns k, SortedMap.isEmpty_eq_false_iff.2 ⟨k, hshare⟩, rfl⟩,
        hshare⟩
    · rintro ⟨s, hs, hk⟩
      obtain ⟨i, -, -, hshare⟩ := (hmem s).1 hs
      rw [hshare, SortedMap.contains_filter, Bool.and_eq_true] at hk
      exact hk.1

/-- **Splitting agrees with asking key by key.**  Whatever calls have built a table:
splitting a set of keys, finding the node of a key and listing the nodes of the bucket
succeed together and fail with the same error; the keys are split among nodes of the bucket,
each key to the node that is found for it alone, just as if they were gathered key by key;
and every place that is looked up is one of the list. -/
theorem nodesFor_splits {partitions : UInt32} {changes : List Change}
    (ht : built partitions changes = t) (bucket : String) (ks : KeySet) :
    (t.nodesFor bucket ks).map (fun _ => ()) = (t.clusterNodes bucket).map (fun _ => ()) ∧
    (∀ k, (t.nodeFor bucket k).map (fun _ => ()) = (t.clusterNodes bucket).map (fun _ => ())) ∧
    (∀ ns shares, t.clusterNodes bucket = .ok ns → t.nodesFor bucket ks = .ok shares →
      Splits (fun k n => t.nodeFor bucket k = .ok n) ks shares ∧ (∀ s ∈ shares, s.1 ∈ ns.val) ∧
        shares.Perm (gathered (t.owner bucket ns) ks.keys)) ∧
    (∀ ns, t.clusterNodes bucket = .ok ns → ∀ k,
      ns.val[t.ownerIndex bucket ns.val.length k]? = some (t.owner bucket ns k)) ∧
    (t.pinnedCluster? bucket = none → t.clusters ≠ [] →
      ∃ c, t.clusters[Partitioning.slotOf bucket t.clusters.length]? = some c ∧
      t.clusterFor bucket = .ok c) := by
  have hordered : t.Ordered := ht ▸ ordered_built partitions changes
  refine ⟨?_, ?_, ?_, fun ns _ => t.getElem?_owner bucket ns, clusterFor_of_slot⟩
  · unfold nodesFor
    cases t.clusterNodes bucket <;> rfl
  · intro k
    unfold nodeFor
    cases t.clusterNodes bucket <;> rfl
  · intro ns shares hns hshares
    have hsplits := hordered.splits_nodesFor hns hshares
    have hnodup := hordered.nodup_of_clusterNodes hns
    have howner : ∀ k k', (t.owner bucket ns k).name = (t.owner bucket ns k').name →
        t.owner bucket ns k = t.owner bucket ns k' := fun k k' =>
      List.inj_on_of_nodup_map hnodup (List.mem_of_getElem? (t.getElem?_owner bucket ns k))
        (List.mem_of_getElem? (t.getElem?_owner bucket ns k'))
    refine ⟨⟨hsplits.distinct, hsplits.nonempty, hsplits.disjoint, hsplits.union, ?_⟩, ?_, ?_⟩
    · intro s hs k hk
      rw [nodeFor_of_clusterNodes hns, hsplits.belong s hs k hk]
    · intro s hs
      obtain ⟨i, hi, -⟩ := (mem_nodesFor hns hshares).1 hs
      exact List.mem_of_getElem? hi
    · exact hsplits.perm (fun _ _ _ hn hm => hn.symm.trans hm) (splits_gathered howner ks)

def eastNode : Node := ⟨"east", .v4 [127, 0, 0, 1] 1, ⟨"c", true⟩, true⟩

def westNode : Node := ⟨"west", .v4 [127, 0, 0, 1] 2, ⟨"c", true⟩, false⟩

/-- The west node is listed twice, and the cluster is put in the place of an earlier one. -/
def twoNodeCalls : List Change :=
  [.cluster ⟨"c", true⟩ [], .cluster ⟨"c", true⟩ [westNode, eastNode, westNode],
    .pin "pinned" "gone"]

theorem sort_twoNodes :
    Node.sort [westNode, eastNode, westNode] = [eastNode, westNode, westNode] := by
  have hbehind : westNode.order eastNode = .gt := by decide +kernel
  have hbefore : eastNode.order westNode = .lt := by decide +kernel
  have hself : westNode.order westNode = .eq := by decide +kernel
  simp [Node.sort, List.mergeSort, hbehind, hbefore, hself]

theorem built_twoNodeCalls : built 16 twoNodeCalls =
    ⟨.ofCount 16, [⟨"c", true⟩], .ofList [("c", [eastNode, westNode])],
      .ofList [("pinned", "gone")]⟩ := by
  have hsort : Node.dedup (Node.sort [westNode, eastNode, westNode]) = [eastNode, westNode] := by
    rw [sort_twoNodes]
    decide +kernel
  change ((withCluster (withCluster _ _ _) _ _).withPin _ _) = _
  unfold withCluster
  rw [hsort, List.mergeSort_of_pairwise (by decide), List.mergeSort_of_pairwise (by decide)]
  rfl

/-- Three keys go to two nodes, in a bucket whose pin leads nowhere. -/
theorem nodesFor_splits_twoNodes : ∃ t, built 16 twoNodeCalls = t ∧
    ∃ ns, t.clusterNodes "pinned" = .ok ns ∧ t.pinnedCluster? "pinned" = none ∧ t.clusters ≠ [] ∧
      t.nodesFor "pinned" (.ofElements [⟨[4]⟩, ⟨[5]⟩, ⟨[6]⟩]) =
        .ok [(eastNode, .ofElements [⟨[5]⟩, ⟨[6]⟩]), (westNode, .ofElements [⟨[4]⟩])] ∧
      [(eastNode, .ofElements [⟨[5]⟩, ⟨[6]⟩]), (westNode, .ofElements [⟨[4]⟩])].Perm
        (gathered (t.owner "pinned" ns) [⟨[4]⟩, ⟨[5]⟩, ⟨[6]⟩]) := by
  refine ⟨_, built_twoNodeCalls, ⟨[eastNode, westNode], by decide⟩, rfl, rfl, by decide, rfl, ?_⟩
  exact ((nodesFor_splits built_twoNodeCalls "pinned" (.ofElements [⟨[4]⟩, ⟨[5]⟩, ⟨[6]⟩])).2.2.1 _
    _ rfl rfl).2.2

end RoutingTable

end BucketCluster
