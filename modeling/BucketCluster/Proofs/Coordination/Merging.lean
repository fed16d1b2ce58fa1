import BucketCluster.Proofs.Coordination.RangeQuery
import BucketCluster.Proofs.Coordination.Shards

/-!
# What is merged from all shards

The parts that nodes read from their shards, merged in whatever order they come, are
what the whole store would have read: its documents, its keys, and, under an order in
which different keys never tie, its first entries.
-/

namespace BucketCluster.Shards

variable {t : RoutingTable} {stores : String → Store} {whole : Store} {b : String}

/-- The documents that a test keeps, gathered from nodes of which the others hold none of them. -/
theorem merge_values (h : Shards t stores whole) (keep : Key → Document → Bool) {ns : List String}
    (hns : ns.Nodup) (hmem : ∀ n ∈ ns, n ∈ t.members b)
    (hall : ∀ k d, (k, d) ∈ (whole.contents b).entries → keep k d = true →
      ∃ n ∈ ns, t.holder b k = some n) :
    Merge.values.answer (ns.map fun n => .values (((stores n).contents b).filter keep)) =
      .ok (.values ((whole.contents b).filter keep)) := by
  have hparts := Merge.answer_values (ns.map fun n => ((stores n).contents b).filter keep)
  rw [List.map_map] at hparts
  have hperm := h.entries_perm b keep hns hmem hall
  have hkeys := ((hperm.map (·.1)).nodup_iff).2 ((whole.contents b).filter keep).sorted.keys_nodup
  have hmap : ((ns.map fun n => ((stores n).contents b).filter keep).flatMap SortedMap.entries) =
      ns.flatMap fun n => (((stores n).contents b).filter keep).entries := by
    rw [List.flatMap_map]
  refine hparts.trans ?_
  rw [hmap, SortedMap.ofList_perm hkeys hperm, SortedMap.ofList_entries]

theorem merge_keys (h : Shards t stores whole) {ns : List String} (hns : ns.Nodup)
    (hmem : ∀ n ∈ ns, n ∈ t.members b) (hall : ∀ k, ∃ n ∈ ns, t.holder b k = some n) :
    Merge.keys.answer (ns.map fun n => .keys ((stores n).contents b).keySet) =
      .ok (.keys (whole.contents b).keySet) := by
  have hparts := Merge.answer_keys (ns.map fun n => ((stores n).contents b).keySet)
  rw [List.map_map] at hparts
  have hperm := h.entries_perm b (fun _ _ => true) hns hmem fun k _ _ _ => hall k
  have hfilter : ∀ ds : Documents, (ds.filter fun _ _ => true) = ds := fun ds =>
    SortedMap.ext (List.filter_eq_self.2 fun _ _ => rfl)
  simp only [hfilter] at hperm
  have hset : (ns.flatMap fun n => ((stores n).contents b).keySet.entries).Perm
      (whole.contents b).keySet.entries := by
    have hmap := hperm.map fun e => (e.1, ())
    rw [List.map_flatMap] at hmap
    exact hmap
  have hkeys := ((hset.map (·.1)).nodup_iff).2 (whole.contents b).keySet.sorted.keys_nodup
  have hmap : ((ns.map fun n => ((stores n).contents b).keySet).flatMap SortedMap.entries) =
      ns.flatMap fun n => ((stores n).contents b).keySet.entries := by
    rw [List.flatMap_map]
  refine hparts.trans ?_
  rw [hmap, SortedMap.ofList_perm hkeys hset, SortedMap.ofList_entries]

/-- Where different keys never tie, the first entries of the tops of all nodes are those
of the whole. -/
theorem merge_entries (h : Shards t stores whole) (range : KeyRange) (order : Comparator)
    [Std.TransCmp order] [Std.LawfulEqCmp order] (f : Filter) {ns : List String} (hns : ns.Nodup)
    (hmem : ∀ n ∈ ns, n ∈ t.members b) (hall : ∀ k, ∃ n ∈ ns, t.holder b k = some n) :
    (Merge.entries order range).answer
        (ns.map fun n => .entries (range.select order f ((stores n).contents b).entries)) =
      .ok (.entries (range.select order f (whole.contents b).entries)) := by
  let tops := ns.map fun n => range.select order f ((stores n).contents b).entries
  have hparts := Merge.answer_entries order range tops
  rw [List.map_map] at hparts
  obtain ⟨rests, hrests⟩ :=
    selections_select range order f (fun n => ((stores n).contents b).entries) ns
  obtain ⟨rest, hrest⟩ := KeyRange.selection_truncate range order tops.flatten
  obtain ⟨rest', hwhole⟩ := KeyRange.selection_truncate range order
    ((whole.contents b).entries.filter (range.qualifies order f))
  have hperm := h.entries_perm b (fun k d => range.qualifies order f (k, d)) hns hmem fun k _ _ _ =>
    hall k
  have htop : range.truncate (KeyRange.sortEntries order tops.flatten) =
      range.select order f (whole.contents b).entries := by
    apply hwhole.unique (hrest.join hrests) (by rwa [← List.flatMap_def])
    intro a ha c hc heq
    -- no two entries of a bucket have the same key
    have hkey : a.1 = c.1 := Std.LawfulEqCmp.eq_of_compare heq
    have ha' := SortedMap.get?_eq_some.2 (List.mem_filter.1 ha).1
    have hc' := SortedMap.get?_eq_some.2 (List.mem_filter.1 hc).1
    rw [← hkey, ha'] at hc'
    exact Prod.ext hkey (Option.some.inj hc')
  refine hparts.trans ?_
  rw [htop]

end BucketCluster.Shards
