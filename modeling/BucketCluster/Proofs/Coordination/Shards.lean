import BucketCluster.Proofs.Routing.Table
import BucketCluster.Proofs.Store.Apply

/-!
# Shards of one store

The stores of the nodes are shards of one whole store if every node holds, of each
bucket that it is a node of, the entries whose holder it is.  Whatever changes one
entry at its holder and in the whole keeps them so, and what is read from all
shards is what is read from the whole, up to order (`Shards.entries_perm`).
-/

namespace BucketCluster

/-- Every node holds its share of every bucket. -/
structure Shards (t : RoutingTable) (stores : String → Store) (whole : Store) : Prop where
  operators : ∀ n, (stores n).operators = whole.operators
  share : ∀ b, ∀ n ∈ t.members b,
    (stores n).contents b = (whole.contents b).filter fun k _ => t.holder b k == some n

variable {t u : RoutingTable} {stores : String → Store} {whole : Store} {b n : String} {k : Key}

namespace RoutingTable

theorem mem_members_of_holder (h : t.holder b k = some n) : n ∈ t.members b :=
  List.mem_of_getElem? h

end RoutingTable

namespace Shards

/-- Who looks at the shards does not matter. -/
theorem of_sameNames (h : Shards t stores whole) (ht : t.SameNames u) : Shards u stores whole where
  operators := h.operators
  share b n hn := by
    rw [← ht.members] at hn
    rw [h.share b n hn]
    simp only [ht.holder]

theorem empty (t : RoutingTable) (ops : Operators) (backups : String → BackupDirectory)
    (backups' : BackupDirectory) :
    Shards t (fun n => .empty ops (backups n)) (.empty ops backups') where
  operators _ := rfl
  share _ _ _ := rfl

/-- The holder has what the whole has under a key. -/
theorem get?_holder (h : Shards t stores whole) (hn : t.holder b k = some n) :
    ((stores n).contents b).get? k = (whole.contents b).get? k := by
  rw [h.share b n (t.mem_members_of_holder hn), SortedMap.get?_filter]
  cases (whole.contents b).get? k with
  | none => rfl
  | some d => simp [Option.filter, hn]

/-! ## Changes -/

/-- The same change under one key, at its holder and in the whole. -/
theorem change (h : Shards t stores whole) (hn : t.holder b k = some n) {node whole' : Store}
    {v : Option Document}
    (hops : node.operators = (stores n).operators) (hops' : whole'.operators = whole.operators)
    (hnode : ∀ b' k', (node.contents b').get? k' =
      if b' = b ∧ k' = k then v else ((stores n).contents b').get? k')
    (hwhole : ∀ b' k', (whole'.contents b').get? k' =
      if b' = b ∧ k' = k then v else (whole.contents b').get? k') :
    Shards t (fun m => if m = n then node else stores m) whole' := by
  constructor
  · intro m
    by_cases hm : m = n
    · subst hm
      rw [if_pos rfl, hops, h.operators, hops']
    · rw [if_neg hm, h.operators, hops']
  · intro b' m hm
    apply SortedMap.ext_get?
    intro k'
    rw [SortedMap.get?_filter, hwhole]
    by_cases hmn : m = n
    · subst hmn
      rw [if_pos rfl, hnode]
      by_cases hk : b' = b ∧ k' = k
      · obtain ⟨rfl, rfl⟩ := hk
        rw [if_pos ⟨rfl, rfl⟩, if_pos ⟨rfl, rfl⟩]
        cases v with
        | none => rfl
        | some d => simp [Option.filter, hn]
      · rw [if_neg hk, if_neg hk, h.share b' m hm, SortedMap.get?_filter]
    · rw [if_neg hmn, h.share b' m hm, SortedMap.get?_filter]
      by_cases hk : b' = b ∧ k' = k
      · obtain ⟨rfl, rfl⟩ := hk
        have hne : (t.holder b' k' == some m) = false := by
          rw [hn]
          simpa using fun h => hmn h.symm
        rw [if_pos ⟨rfl, rfl⟩]
        cases v <;> cases (whole.contents b').get? k' <;> simp [Option.filter, hne]
      · rw [if_neg hk]

theorem store (h : Shards t stores whole) (hn : t.holder b k = some n) (d : Document) :
    Shards t (fun m => if m = n then (stores n).store b k d else stores m) (whole.store b k d) := by
  have hget : ∀ (s : Store) b' k', ((s.store b k d).contents b').get? k' =
      if b' = b ∧ k' = k then some d else (s.contents b').get? k' := by
    intro s b' k'
    rw [Store.store, Store.contents_setContents]
    by_cases hb : b' = b
    · subst hb
      rw [if_pos rfl]
      by_cases hk : k' = k
      · subst hk
        rw [if_pos ⟨rfl, rfl⟩, SortedMap.get?_insert_self]
      · rw [if_neg fun h => hk h.2, SortedMap.get?_insert_of_ne _ _ hk]
    · rw [if_neg hb, if_neg fun h => hb h.1]
  exact h.change hn rfl rfl (hget _) (hget _)

theorem remove (h : Shards t stores whole) (hn : t.holder b k = some n) :
    Shards t (fun m => if m = n then (stores n).remove b k else stores m) (whole.remove b k) := by
  have hget : ∀ (s : Store) b' k', ((s.remove b k).contents b').get? k' =
      if b' = b ∧ k' = k then none else (s.contents b').get? k' := by
    intro s b' k'
    rw [Store.contents_remove]
    by_cases hb : b' = b
    · subst hb
      rw [if_pos rfl]
      by_cases hk : k' = k
      · subst hk
        rw [if_pos ⟨rfl, rfl⟩, SortedMap.get?_erase_self]
      · rw [if_neg fun h => hk h.2, SortedMap.get?_erase_of_ne _ hk]
    · rw [if_neg hb, if_neg fun h => hb h.1]
  exact h.change hn (Store.operators_remove _ _ _) (Store.operators_remove _ _ _) (hget _) (hget _)

/-- All nodes of a bucket drop it. -/
theorem drop (h : Shards t stores whole) (b : String) :
    Shards t (fun m => if m ∈ t.members b then (stores m).drop b else stores m) (whole.drop b) := by
  constructor
  · intro m
    by_cases hm : m ∈ t.members b
    · rw [if_pos hm]
      exact h.operators m
    · rw [if_neg hm]
      exact h.operators m
  · intro b' m hm
    rw [Store.contents_drop]
    by_cases hb : b' = b
    · subst hb
      rw [if_pos hm, if_pos rfl, Store.contents_drop, if_pos rfl]
      rfl
    · rw [if_neg hb, ← h.share b' m hm]
      by_cases hm' : m ∈ t.members b
      · rw [if_pos hm', Store.contents_drop, if_neg hb]
      · rw [if_neg hm']

/-! ## Reading all shards -/

/-- A list falls into the parts that belong to each of some names. -/
theorem filter_flatMap_perm {α : Type} {l : List α} (hl : l.Nodup) {ns : List String}
    (hns : ns.Nodup) {own : α → Option String} (hown : ∀ a ∈ l, ∃ n ∈ ns, own a = some n) :
    (ns.flatMap fun n => l.filter fun a => own a == some n).Perm l := by
  refine (List.perm_ext_iff_of_nodup ?_ hl).2 ?_
  · refine List.pairwise_flatMap.2 ⟨fun n _ => hl.filter _, hns.imp ?_⟩
    intro m n hmn a ha c hc hac
    subst hac
    have hm := beq_iff_eq.1 (List.mem_filter.1 ha).2
    have hn := beq_iff_eq.1 (List.mem_filter.1 hc).2
    exact hmn (Option.some.inj (hm.symm.trans hn))
  · intro a
    rw [List.mem_flatMap]
    constructor
    · rintro ⟨n, -, ha⟩
      exact (List.mem_filter.1 ha).1
    · intro ha
      obtain ⟨n, hn, heq⟩ := hown a ha
      exact ⟨n, hn, List.mem_filter.2 ⟨ha, beq_iff_eq.2 heq⟩⟩

/-- What a test keeps of all shards is what it keeps of the whole, if those who are left out hold
nothing that it keeps. -/
theorem entries_perm (h : Shards t stores whole) (b : String) (keep : Key → Document → Bool)
    {ns : List String} (hns : ns.Nodup) (hmem : ∀ n ∈ ns, n ∈ t.members b)
    (hall : ∀ k d, (k, d) ∈ (whole.contents b).entries → keep k d = true →
      ∃ n ∈ ns, t.holder b k = some n) :
    (ns.flatMap fun n => (((stores n).contents b).filter keep).entries).Perm
      ((whole.contents b).filter keep).entries := by
  have hparts : (ns.flatMap fun n => (((stores n).contents b).filter keep).entries) =
      ns.flatMap fun n =>
        ((whole.contents b).filter keep).entries.filter fun e => t.holder b e.1 == some n := by
    rw [List.flatMap_def, List.flatMap_def]
    refine congrArg _ (List.map_congr_left ?_)
    intro n hn
    rw [h.share b n (hmem n hn)]
    simp only [SortedMap.filter]
    rw [List.filter_filter, List.filter_filter]
    exact List.filter_congr fun e _ => Bool.and_comm _ _
  rw [hparts]
  apply filter_flatMap_perm ((whole.contents b).filter keep).sorted.nodup hns
  intro e he
  obtain ⟨hin, hkeep⟩ := List.mem_filter.1 he
  exact hall e.1 e.2 hin hkeep

end Shards

end BucketCluster
