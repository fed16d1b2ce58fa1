import BucketCluster.Proofs.Coordination.AnyOrder
import BucketCluster.Proofs.Coordination.Placement
import BucketCluster.Proofs.Coordination.Plans
import BucketCluster.Proofs.Network.Endings

/-!
# All or an error

A command that several nodes carry out together is answered by all of them or fails: there are no
partial answers.  The outcomes of the sends, in the order in which they come, are collected if
they are all answers, and the first that is not decides otherwise (`SendOutcome.collect_any_order`).
So it is with every request, at any time and whatever the nodes and the links do: a good answer
has the shares of all nodes in it, and any failure fails the request (`fanOut_all_or_error`).
-/

namespace BucketCluster

/-! ## Outcomes in any order -/

namespace SendOutcome

theorem exists_answers {os : List SendOutcome} (h : ∀ o ∈ os, ∃ a, o = answered a) :
    ∃ as : List Answer, os = as.map answered := by
  cases hcollect : collect os with
  | ok as => exact ⟨as, collect_eq_ok.1 hcollect⟩
  | error e =>
    obtain ⟨as, o, os', rfl, ho⟩ := collect_eq_error.1 hcollect
    obtain ⟨a, rfl⟩ := h o (List.mem_append_right _ List.mem_cons_self)
    exact absurd ho result_answered

/-- What has been collected of the outcomes of some sends: either all of them are answers,
or the first one that is none has been found. -/
structure Collected (outcome : Nat → SendOutcome) (js : List Nat) (sends : Nat)
    (result : Except ClusterError (List Answer)) : Prop where
  ok_iff : (∃ as, result = .ok as) ↔ ∀ j < sends, ∃ a, outcome j = answered a
  perm : ∀ as, result = .ok as → (as.map answered).Perm ((List.range sends).map outcome)
  error_iff : ∀ e, result = .error e ↔ ∃ before j after, js = before ++ j :: after ∧
    (∀ i ∈ before, ∃ a, outcome i = answered a) ∧ (outcome j).result = .error e

/-- Whatever the outcomes are and in whatever order they come: all answers are collected, or
the first failure is found. -/
theorem collect_any_order {outcome : Nat → SendOutcome} {js : List Nat} {sends : Nat}
    (hjs : js.Perm (List.range sends)) : Collected outcome js sends (collect (js.map outcome)) where
  ok_iff := by
    constructor
    · rintro ⟨as, has⟩ j hj
      have hmem : outcome j ∈ js.map outcome :=
        List.mem_map_of_mem (hjs.mem_iff.2 (List.mem_range.2 hj))
      rw [collect_eq_ok.1 has] at hmem
      obtain ⟨a, -, ha⟩ := List.mem_map.1 hmem
      exact ⟨a, ha.symm⟩
    · intro h
      have hall : ∀ o ∈ js.map outcome, ∃ a, o = answered a := by
        intro o ho
        obtain ⟨j, hj, rfl⟩ := List.mem_map.1 ho
        exact h j (List.mem_range.1 (hjs.mem_iff.1 hj))
      obtain ⟨as, has⟩ := exists_answers hall
      exact ⟨as, collect_eq_ok.2 has⟩
  perm as has := by
    rw [← collect_eq_ok.1 has]
    exact hjs.map outcome
  error_iff e := by
    rw [collect_eq_error]
    constructor
    · rintro ⟨as, o, os, hsplit, ho⟩
      obtain ⟨before, rest, rfl, hbefore, hrest⟩ := List.map_eq_append_iff.1 hsplit
      obtain ⟨j, after, rfl, rfl, -⟩ := List.map_eq_cons_iff.1 hrest
      refine ⟨before, j, after, rfl, fun i hi => ?_, ho⟩
      have hmem : outcome i ∈ before.map outcome := List.mem_map_of_mem hi
      rw [hbefore] at hmem
      obtain ⟨a, -, ha⟩ := List.mem_map.1 hmem
      exact ⟨a, ha.symm⟩
    · rintro ⟨before, j, after, rfl, hbefore, hj⟩
      have hall : ∀ o ∈ before.map outcome, ∃ a, o = answered a := by
        intro o ho
        obtain ⟨i, hi, rfl⟩ := List.mem_map.1 ho
        exact hbefore i hi
      obtain ⟨as, has⟩ := exists_answers hall
      refine ⟨as, outcome j, after.map outcome, ?_, hj⟩
      rw [List.map_append, has]
      rfl

end SendOutcome

/-! ## Shares -/

/-- The answer has the shares of all nodes in it. -/
inductive Merge.Includes : Merge → List Answer → Answer → Prop where
  /-- Every key of a share has a document, and that is the one of a share. -/
  | values {shares : List Documents} {whole : Documents}
      (has : ∀ share ∈ shares, ∀ k, share.contains k = true → whole.contains k = true)
      (given : ∀ k d, whole.get? k = some d → ∃ share ∈ shares, share.get? k = some d) :
      Includes .values (shares.map .values) (.values whole)
  | keys {shares : List KeySet} {whole : KeySet}
      (has : ∀ k, whole.contains k = true ↔ ∃ share ∈ shares, share.contains k = true) :
      Includes .keys (shares.map .keys) (.keys whole)
  /-- What is cut off comes behind as many entries as the range allows. -/
  | entries {order : Comparator} {range : KeyRange} {shares : List (List (Key × Document))}
      {whole rest : List (Key × Document)} (perm : shares.flatten.Perm (whole ++ rest))
      (full : rest ≠ [] → range.limit ≠ 0 ∧ range.limit.toNat ≤ whole.length)
      (first : Std.TransCmp order → ∀ a ∈ whole, ∀ b ∈ rest, (order a.1 b.1).isLE = true) :
      Includes (.entries order range) (shares.map .entries) (.entries whole)
  | done (shares : List Answer) : Includes .done shares .done

/-- **No share is lost.** -/
theorem Merge.includes_of_answer {m : Merge} (hm : m ≠ .only) {as : List Answer} {a : Answer}
    (h : m.answer as = .ok a) : m.Includes as a := by
  cases m with
  | only => exact absurd rfl hm
  | done =>
    cases h
    exact .done as
  | values =>
    rcases reads_values.mapM_or as with ⟨shares, rfl⟩ | hrefused
    · rw [answer_values] at h
      cases h
      refine .values (fun share hshare k hk => ?_) fun k d hd => ?_
      · obtain ⟨d, hd⟩ := SortedMap.contains_iff.1 hk
        rw [SortedMap.contains_ofList]
        exact List.mem_map.2 ⟨(k, d), List.mem_flatMap.2 ⟨share, hshare, hd⟩, rfl⟩
      · rcases SortedMap.mem_insertAll (SortedMap.get?_eq_some.1 hd) with hmem | hmem
        · obtain ⟨share, hshare, hmem⟩ := List.mem_flatMap.1 hmem
          exact ⟨share, hshare, SortedMap.get?_eq_some.2 hmem⟩
        · cases hmem
    · rw [answer, hrefused] at h
      cases h
  | keys =>
    rcases reads_keys.mapM_or as with ⟨shares, rfl⟩ | hrefused
    · rw [answer_keys] at h
      cases h
      refine .keys fun k => ?_
      rw [SortedMap.contains_ofList, List.map_flatMap, List.mem_flatMap]
      simp only [SortedMap.contains_iff_mem_keys]
    · rw [answer, hrefused] at h
      cases h
  | entries order range =>
    rcases reads_entries.mapM_or as with ⟨shares, rfl⟩ | hrefused
    · rw [answer_entries] at h
      cases h
      obtain ⟨rest, hsplit, hfull, -⟩ :=
        range.exists_truncate (KeyRange.sortEntries order shares.flatten)
      have hperm := (KeyRange.sortEntries_perm order shares.flatten).symm
      rw [← hsplit] at hperm
      refine .entries hperm hfull fun htrans a ha b hb => ?_
      have hsorted := KeyRange.sortEntries_sorted order shares.flatten
      rw [← hsplit] at hsorted
      exact (List.pairwise_append.1 hsorted).2.2 a ha b hb
    · rw [answer, hrefused] at h
      cases h

/-! ## Commands for several nodes -/

/-- The commands that several nodes carry out together. -/
def Operation.Spreads : Operation → Prop
  | .getValues .. => True
  | .getKeys _ => True
  | .predicateQuery .. => True
  | .rangeQuery .. => True
  | .removeBucket _ => True
  | _ => False

/-- To whom a command goes: to the owners of its keys, each with its share of them, or to
all nodes of the bucket's cluster. -/
inductive Router.Spread (r : Router) (c : Command) : List (Node × Command) → Prop where
  | owners {b : String} {ks : KeySet} {pred : Option Predicate} {shares : List (Node × KeySet)}
      (hc : c.operation = .getValues b ks pred) (hshares : r.table.nodesFor b ks = .ok shares) :
      Spread r c (shares.map fun share => (share.1, c.narrowed share.2))
  | all {b : String} {ns : { ns : List Node // 0 < ns.length }}
      (hc : ∀ b ks pred, c.operation ≠ .getValues b ks pred) (hb : c.operation.bucket? = some b)
      (hns : r.table.clusterNodes b = .ok ns) : Spread r c (ns.val.map (·, c))

/-- A plan for such a command is for all of these nodes, and does not take one answer for all. -/
theorem Router.spread_of_plan {r : Router} {c : Command} {p : Plan} (hc : c.operation.Spreads)
    (hp : r.plan c = .ok p) : r.Spread c p.sends ∧ p.merge ≠ .only := by
  obtain ⟨id, op⟩ := c
  obtain ⟨f, -, hp⟩ := of_bind_ok hp
  cases op with
  | getValues b ks pred =>
    obtain ⟨shares, hshares, hp⟩ := of_bind_ok hp
    cases hp
    exact ⟨.owners rfl (of_ofRoute hshares), nofun⟩
  | getKeys b =>
    obtain ⟨ns, hns, rfl⟩ := of_toAll hp
    exact ⟨.all nofun rfl hns, nofun⟩
  | predicateQuery b pred =>
    obtain ⟨ns, hns, rfl⟩ := of_toAll hp
    exact ⟨.all nofun rfl hns, nofun⟩
  | rangeQuery b range pred =>
    obtain ⟨order, -, hp⟩ := of_bind_ok hp
    obtain ⟨ns, hns, rfl⟩ := of_toAll hp
    exact ⟨.all nofun rfl hns, nofun⟩
  | removeBucket b =>
    obtain ⟨ns, hns, rfl⟩ := of_toAll hp
    exact ⟨.all nofun rfl hns, nofun⟩
  | _ => exact hc.elim

/-- A request whose sends have ended like this, in this order, has no partial answer. -/
structure Plan.AllOrError (p : Plan) (ends : List (Nat × SendOutcome))
    (answer : Option (Except ClusterError Answer)) : Prop where
  nodup : (ends.map (·.1)).Nodup
  places : ∀ j ∈ ends.map (·.1), j < p.sends.length
  decides : p.Decides (ends.map (·.2)) answer
  /-- Every node has its share in a good answer. -/
  all : ∀ a, answer = some (.ok a) → (∀ j < p.sends.length, ∃ share, (j, .answered share) ∈ ends) ∧
    ∃ shares, ends.map (·.2) = shares.map .answered ∧ p.merge.Includes shares a
  /-- Any failure is the answer. -/
  error : ∀ j o e, (j, o) ∈ ends → o.result = .error e → answer = some (.error e)

namespace Plan

variable {p : Plan} {os : List SendOutcome} {answer : Option (Except ClusterError Answer)}
  {o : SendOutcome} {e : ClusterError} {a : Answer}

/-- There is one failure at most, and it is the answer. -/
theorem Decides.of_failure (h : p.Decides os answer) (ho : o ∈ os) (he : o.result = .error e) :
    answer = some (.error e) := by
  have hanswered {as : List Answer} (hmem : o ∈ as.map SendOutcome.answered) : False := by
    obtain ⟨a, -, rfl⟩ := List.mem_map.1 hmem
    exact SendOutcome.result_answered he
  cases h with
  | pending => exact (hanswered ho).elim
  | merged => exact (hanswered ho).elim
  | failed hfirst =>
    rcases List.mem_append.1 ho with hmem | hmem
    · exact (hanswered hmem).elim
    · rw [List.mem_singleton.1 hmem, hfirst] at he
      rw [Except.error.inj he]

/-- A good answer is merged from as many answers as there are sends. -/
theorem Decides.of_ok (h : p.Decides os (some (.ok a))) :
    ∃ as : List Answer, os = as.map .answered ∧ as.length = p.sends.length ∧
    p.merge.answer as = .ok a := by
  generalize hanswer : some (Except.ok a) = answer at h
  cases h with
  | pending => cases hanswer
  | failed => cases hanswer
  | @merged as hlen =>
    refine ⟨as, rfl, hlen, ?_⟩
    cases hmerged : p.merge.answer as with
    | error e =>
      rw [hmerged] at hanswer
      cases hanswer
    | ok a' =>
      rw [hmerged] at hanswer
      cases hanswer
      rfl

end Plan

/-- Places that are all different, and as many as there are, are all places. -/
theorem mem_of_nodup_of_length {js : List Nat} {sends : Nat} (hnodup : js.Nodup)
    (hlt : ∀ j ∈ js, j < sends) (hlen : js.length = sends) {j : Nat} (hj : j < sends) : j ∈ js := by
  have hsub : js.Subperm (List.range sends) :=
    List.subperm_of_subset hnodup fun i hi => List.mem_range.2 (hlt i hi)
  have hperm := hsub.perm_of_length_le (by rw [hlen, List.length_range])
  exact hperm.mem_iff.2 (List.mem_range.2 hj)

theorem Request.Reckons.allOrError {q : Request} {p : Plan} {ends : List (Nat × SendOutcome)}
    (h : q.Reckons p ends) (hm : p.merge ≠ .only) : p.AllOrError ends q.answer where
  nodup := h.nodup
  places _ hj := h.lt_of_mem hj
  decides := h.answer
  all a ha := by
    obtain ⟨shares, hshares, hlen, hmerged⟩ := Plan.Decides.of_ok (ha ▸ h.answer)
    refine ⟨fun j hj => ?_, shares, hshares, Merge.includes_of_answer hm hmerged⟩
    have hlength : (ends.map (·.1)).length = p.sends.length := by
      have hends := congrArg List.length hshares
      rw [List.length_map, List.length_map] at hends
      rw [List.length_map, hends, hlen]
    obtain ⟨⟨_, o⟩, hmem, rfl⟩ :=
      List.mem_map.1 (mem_of_nodup_of_length h.nodup (fun _ hi => h.lt_of_mem hi) hlength hj)
    have ho : o ∈ ends.map (·.2) := List.mem_map.2 ⟨_, hmem, rfl⟩
    rw [hshares] at ho
    obtain ⟨share, -, rfl⟩ := List.mem_map.1 ho
    exact ⟨share, hmem⟩
  error j o e hmem he := h.answer.of_failure (List.mem_map.2 ⟨(j, o), hmem, rfl⟩) he

namespace Network

/-- **All or an error.**  The outcomes of sends are all collected if they are answers, in
whatever order they come, and else it is the first failure that counts.  A command for
several nodes goes to all of them, and at any time of its request, whatever the nodes and
the links do: a good answer has the shares of all these nodes in it, and once a send has
failed, in whatever way, its error is the answer. -/
theorem fanOut_all_or_error :
    (∀ (outcome : Nat → SendOutcome) (js : List Nat) (sends : Nat), js.Perm (List.range sends) →
      SendOutcome.Collected outcome js sends (SendOutcome.collect (js.map outcome))) ∧
    ∀ (r : Router) (c : Command) (p : Plan), c.operation.Spreads → r.plan c = .ok p →
    r.Spread c p.sends ∧
      ∀ (n₀ n : Network) (i : Nat) (ends : List (Nat × SendOutcome)),
        n₀.requests[i]? = some (.ofPlan (.ok p)) → n₀.Course i ends n →
        p.AllOrError ends (n.answer? i) := by
  refine ⟨fun outcome js sends hjs => SendOutcome.collect_any_order hjs, fun r c p hc hp => ?_⟩
  obtain ⟨hspread, hm⟩ := Router.spread_of_plan hc hp
  refine ⟨hspread, fun n₀ n i ends hq hcourse => ?_⟩
  obtain ⟨q, hq', hreckons⟩ := hcourse.reckons hq
  rw [answer?, hq']
  exact hreckons.allOrError hm

/-! ## A listing by two nodes -/

theorem Course.after {n₀ n n' : Network} {i : Nat} {ends : List (Nat × SendOutcome)}
    (h : n₀.Course i ends n) {evs : List Event} (hn' : n.after evs = some n') :
    ∃ more, n₀.Course i more n' := by
  induction evs generalizing n ends with
  | nil =>
    cases hn'
    exact ⟨ends, h⟩
  | cons ev evs ih =>
    obtain ⟨m, hm, hn'⟩ := Option.bind_eq_some_iff.1 hn'
    exact ih (h.step hm) hn'

def listingPlan : Plan := ⟨[(left false, listing), (right true, listing)], .keys⟩

/-- The keys are asked for at `right`. -/
def listed : Network := { pairNetwork with requests := [.ofPlan (.ok listingPlan)] }

/-- Both nodes work on it, and the answer of `right` comes first. -/
def listingWork : List Event :=
  [.send 0 1, .send 0 0] ++ work "left" 0 6 ++ work "right" 0 6 ++ [.receive 0 1, .receive 0 0]

theorem runs_listed :
    (listed.after listingWork).any (fun n => n.answer? 0 == some (.ok (.keys ∅))) = true ∧
      ((listed.disconnect "left").after [.send 0 1, .send 0 0]).any (fun n =>
        n.answer? 0 == some (.error (.communication (.unreachable "left" notAttached)))) =
          true := by
  decide +kernel

/-- What two nodes answer is the answer; where `left` cannot be reached, that is the answer,
though `right` is still at work. -/
theorem fanOut_all_or_error_pair :
    listing.operation.Spreads ∧ rightRouter.plan listing = .ok listingPlan ∧
    rightRouter.Spread listing listingPlan.sends ∧
    (∃ n ends, listed.Course 0 ends n ∧ n.answer? 0 = some (.ok (.keys ∅)) ∧
      listingPlan.AllOrError ends (n.answer? 0)) ∧
    (∃ n ends, listed.Course 0 ends n ∧
      n.answer? 0 = some (.error (.communication (.unreachable "left" notAttached))) ∧
      listingPlan.AllOrError ends (n.answer? 0)) ∧
    SendOutcome.collect ([1, 0].map fun j => if j = 0 then .crashed "a" else .unreachable "n" "b") =
      .error (.communication (.unreachable "n" "b")) := by
  obtain ⟨hcollected, hplan⟩ := fanOut_all_or_error
  obtain ⟨hspread, hcourse⟩ := hplan rightRouter listing listingPlan trivial plan_listing
  obtain ⟨n, hn, hanswer⟩ := Option.any_eq_true .. |>.1 runs_listed.1
  obtain ⟨n', hn', hanswer'⟩ := Option.any_eq_true .. |>.1 runs_listed.2
  have hstart : listed.Course 0 [] listed := .start
  obtain ⟨ends, hends⟩ := hstart.after hn
  obtain ⟨ends', hends'⟩ := (hstart.changes _ _ _).after hn'
  refine ⟨trivial, plan_listing, hspread,
    ⟨n, ends, hends, eq_of_beq hanswer, hcourse _ _ _ _ rfl hends⟩,
    ⟨n', ends', hends', eq_of_beq hanswer', hcourse _ _ _ _ rfl hends'⟩, ?_⟩
  exact ((hcollected _ [1, 0] 2 (by decide)).error_iff _).2 ⟨[], 1, [0], rfl, nofun, rfl⟩

end Network

end BucketCluster
