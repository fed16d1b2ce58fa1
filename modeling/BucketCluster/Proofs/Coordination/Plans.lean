import BucketCluster.Coordination.Plan
import BucketCluster.Proofs.Lists
import BucketCluster.Proofs.Message
import BucketCluster.Proofs.Routing.Table

/-!
# What plans look like

A plan that a coordinator has made is a plan for one node or for all nodes of a bucket,
or it splits a set of keys.  Whoever has a plan finds here which it is, without looking
at how it was made.  Of all plans it is true that a document goes to the holder of its
key, and that nothing that is sent is longer than the command (`suits_of_plan`).
-/

namespace BucketCluster

theorem RoutingTable.holder_of_nodeFor {t : RoutingTable} {b : String} {k : Key} {n : Node}
    (h : t.nodeFor b k = .ok n) : t.holder b k = some n.name := by
  obtain ⟨ns, hns, howner⟩ := of_bind_ok h
  cases howner
  exact holder_of_clusterNodes hns k

/-- A share of some keys is made of them. -/
theorem RoutingTable.share_sublist {t : RoutingTable} {b : String} {ks : KeySet}
    {shares : List (Node × KeySet)} (h : t.nodesFor b ks = .ok shares) {share : Node × KeySet}
    (hs : share ∈ shares) : share.2.entries.Sublist ks.entries := by
  obtain ⟨ns, -, hshares⟩ := of_bind_ok h
  cases hshares
  obtain ⟨⟨n, i⟩, -, hsome⟩ := List.mem_filterMap.1 hs
  simp only at hsome
  split at hsome
  · cases hsome
  · cases hsome
    exact List.filter_sublist

/-- If the command puts a document, then at the holder of its key. -/
def RoutingTable.Suits (t : RoutingTable) (name : String) (c : Command) : Prop :=
  ∀ b k d p, c.operation = .putValue b k d p → t.holder b k = some name

namespace Router

variable {r : Router} {c : Command} {p : Plan} {b : String} {k : Key} {m : Merge}

theorem of_ofRoute {α : Type} {x : Except RouteError α} {a : α} (h : ofRoute x = .ok a) :
    x = .ok a := by
  cases x with
  | error e => cases h
  | ok a' => exact congrArg Except.ok (Except.ok.inj h)

theorem of_toOwner (h : r.toOwner c b k = .ok p) :
    ∃ n, r.table.nodeFor b k = .ok n ∧ p = .direct n c := by
  obtain ⟨n, hn, hp⟩ := of_bind_ok h
  cases hp
  exact ⟨n, of_ofRoute hn, rfl⟩

theorem of_toAll (h : r.toAll c b m = .ok p) :
    ∃ ns, r.table.clusterNodes b = .ok ns ∧ p = ⟨ns.val.map (·, c), m⟩ := by
  obtain ⟨ns, hns, hp⟩ := of_bind_ok h
  cases hp
  exact ⟨ns, of_ofRoute hns, rfl⟩

theorem of_toListedSelf (h : r.toListedSelf c = .ok p) :
    ∃ n, r.listedSelf = .ok n ∧ p = .direct n c := by
  obtain ⟨n, hn, hp⟩ := of_bind_ok h
  cases hp
  exact ⟨n, of_ofRoute hn, rfl⟩

/-! ## What is sent where -/

/-- A command that puts nothing is suited to any node. -/
theorem suits_of_same {t : RoutingTable} {sends : List (Node × Command)}
    (h : ∀ send ∈ sends, send.2 = c) (hput : ∀ b k d p, c.operation ≠ .putValue b k d p) :
    ∀ send ∈ sends, t.Suits send.1.name send.2 ∧
      (Command.schema.encode send.2).length ≤ (Command.schema.encode c).length := by
  intro send hs
  rw [h send hs]
  exact ⟨fun b k d p heq => absurd heq (hput b k d p), Nat.le_refl _⟩

theorem direct_sends {n : Node} : ∀ send ∈ (Plan.direct n c).sends, send.2 = c := by
  intro send hs
  rw [List.mem_singleton.1 hs]

theorem broadcast_sends {ns : List Node} : ∀ send ∈ ns.map (·, c), send.2 = c := by
  intro send hs
  obtain ⟨n, -, rfl⟩ := List.mem_map.1 hs
  rfl

/-- **Plans route.**  A document goes to the holder of its key, and nothing that is sent is
longer than the command. -/
theorem suits_of_plan (hp : r.plan c = .ok p) :
    ∀ send ∈ p.sends, r.table.Suits send.1.name send.2 ∧
      (Command.schema.encode send.2).length ≤ (Command.schema.encode c).length := by
  obtain ⟨i, op⟩ := c
  obtain ⟨f, -, hp⟩ := of_bind_ok hp
  cases op with
  | getBuckets =>
    cases hp
    exact suits_of_same direct_sends fun _ _ _ _ => nofun
  | getValue b k p' =>
    obtain ⟨n, -, rfl⟩ := of_toOwner hp
    exact suits_of_same direct_sends fun _ _ _ _ => nofun
  | removeValue b k =>
    obtain ⟨n, -, rfl⟩ := of_toOwner hp
    exact suits_of_same direct_sends fun _ _ _ _ => nofun
  | updateValue b k u =>
    obtain ⟨n, -, rfl⟩ := of_toOwner hp
    exact suits_of_same direct_sends fun _ _ _ _ => nofun
  | putValue b k d p' =>
    obtain ⟨n, hn, rfl⟩ := of_toOwner hp
    intro send hs
    rw [List.mem_singleton.1 hs]
    refine ⟨?_, Nat.le_refl _⟩
    intro b' k' d' q heq
    cases heq
    exact RoutingTable.holder_of_nodeFor hn
  | getValues b ks p' =>
    obtain ⟨shares, hshares, hp⟩ := of_bind_ok hp
    cases hp
    intro send hs
    obtain ⟨share, hshare, rfl⟩ := List.mem_map.1 hs
    have hsub := RoutingTable.share_sublist (of_ofRoute hshares) hshare
    exact ⟨fun _ _ _ _ => nofun, Command.length_narrowed hsub i b p'⟩
  | getKeys b =>
    obtain ⟨ns, -, rfl⟩ := of_toAll hp
    exact suits_of_same broadcast_sends fun _ _ _ _ => nofun
  | predicateQuery b p' =>
    obtain ⟨ns, -, rfl⟩ := of_toAll hp
    exact suits_of_same broadcast_sends fun _ _ _ _ => nofun
  | rangeQuery b range p' =>
    obtain ⟨order, -, hp⟩ := of_bind_ok hp
    obtain ⟨ns, -, rfl⟩ := of_toAll hp
    exact suits_of_same broadcast_sends fun _ _ _ _ => nofun
  | removeBucket b =>
    obtain ⟨ns, -, rfl⟩ := of_toAll hp
    exact suits_of_same broadcast_sends fun _ _ _ _ => nofun
  | importBackup b source =>
    obtain ⟨n, -, rfl⟩ := of_toListedSelf hp
    exact suits_of_same direct_sends fun _ _ _ _ => nofun
  | exportBackup b destination =>
    obtain ⟨n, -, rfl⟩ := of_toListedSelf hp
    exact suits_of_same direct_sends fun _ _ _ _ => nofun

end Router

end BucketCluster
