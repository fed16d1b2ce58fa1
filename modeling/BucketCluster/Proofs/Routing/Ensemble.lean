import BucketCluster.Proofs.SortedMap
import BucketCluster.Routing.Ensemble

/-!
# Which ensembles are accepted

The check goes through clusters, members and pins and remembers the names that it has
seen.  `validate_eq_ok_iff` says what it comes to, with no mention of an order: there
are partitions, no two clusters share a name and no two members do, and pins name
clusters.  A configuration that is refused has the fault that the refusal names
(`has_of_validate`).
-/

namespace BucketCluster.Ensemble

/-- What a configuration has to meet. -/
structure WellFormed (e : Ensemble) : Prop where
  partitions : e.partitions ≠ 0
  clusters : (e.clusters.map (·.name)).Nodup
  /-- Over all clusters together. -/
  members : (e.members.map (·.name)).Nodup
  pins : ∀ bucket cluster, e.pins.get? bucket = some cluster → cluster ∈ e.clusters.map (·.name)

/-- The fault that a refusal names is there. -/
def Has (e : Ensemble) : EnsembleError → Prop
  | .noPartitions => e.partitions = 0
  | .duplicateCluster name => 2 ≤ (e.clusters.map (·.name)).count name
  | .duplicateNode name => 2 ≤ (e.members.map (·.name)).count name
  | .unknownPlacement bucket cluster =>
    e.pins.get? bucket = some cluster ∧ cluster ∉ e.clusters.map (·.name)
  | .unreadable _ | .unparsable _ => False

/-! ## The parts of the check -/

theorem checkMembers_eq_ok_iff {seen seen' : List String} {ms : List Member} :
    checkMembers seen ms = .ok seen' ↔ (ms.map (·.name)).Nodup ∧ (∀ m ∈ ms, m.name ∉ seen) ∧
      seen' = (ms.map (·.name)).reverse ++ seen := by
  induction ms generalizing seen with
  | nil => simp [checkMembers, eq_comm]
  | cons m ms ih =>
    unfold checkMembers
    by_cases hm : m.name ∈ seen
    · rw [if_pos (List.contains_iff_mem.2 hm)]
      simp [hm]
    · rw [if_neg (by simpa using hm), ih]
      simp only [List.map_cons, List.nodup_cons, List.mem_cons, not_or, List.mem_map,
        List.reverse_cons, List.append_assoc, List.singleton_append]
      constructor
      · rintro ⟨hnodup, hout, rfl⟩
        refine ⟨⟨?_, hnodup⟩, ?_, rfl⟩
        · rintro ⟨m', hm', hname⟩
          exact (hout m' hm').1 hname
        · rintro m' (rfl | hm')
          · exact hm
          · exact (hout m' hm').2
      · rintro ⟨⟨hfresh, hnodup⟩, hout, rfl⟩
        exact ⟨hnodup, fun m' hm' => ⟨fun hname => hfresh ⟨m', hm', hname⟩, hout m' (.inr hm')⟩,
          rfl⟩

theorem checkClusters_eq_ok_iff {clusters members clusters' : List String} {cs : List ClusterPlan} :
    checkClusters clusters members cs = .ok clusters' ↔
      ((cs.map (·.name)).Nodup ∧ ∀ c ∈ cs, c.name ∉ clusters) ∧
      (((cs.flatMap (·.members)).map (·.name)).Nodup ∧
        ∀ m ∈ cs.flatMap (·.members), m.name ∉ members) ∧
      clusters' = (cs.map (·.name)).reverse ++ clusters := by
  induction cs generalizing clusters members with
  | nil => simp [checkClusters, eq_comm]
  | cons c cs ih =>
    unfold checkClusters
    by_cases hc : c.name ∈ clusters
    · rw [if_pos (List.contains_iff_mem.2 hc)]
      simp [hc]
    · rw [if_neg (by simpa using hc)]
      cases hms : checkMembers members c.members with
      | error err =>
        have hne : ¬ ((c.members.map (·.name)).Nodup ∧ ∀ m ∈ c.members, m.name ∉ members) := by
          rintro ⟨hnodup, hout⟩
          rw [checkMembers_eq_ok_iff.2 ⟨hnodup, hout, rfl⟩] at hms
          cases hms
        refine ⟨fun h => (by cases h), ?_⟩
        rintro ⟨-, ⟨hnodup, hout⟩, -⟩
        rw [List.flatMap_cons] at hnodup hout
        rw [List.map_append, List.nodup_append] at hnodup
        exact absurd ⟨hnodup.1, fun m hm => hout m (List.mem_append_left _ hm)⟩ hne
      | ok seen =>
        obtain ⟨hnodup, hout, rfl⟩ := checkMembers_eq_ok_iff.1 hms
        refine (show _ ↔ _ from ih).trans ?_
        simp only [List.map_cons, List.nodup_cons, List.mem_cons, not_or, List.reverse_cons,
          List.append_assoc,
          List.singleton_append, List.flatMap_cons, List.map_append, List.nodup_append,
            List.mem_append,
          List.mem_reverse]
        constructor
        · rintro ⟨⟨hcs, hfresh⟩, ⟨hms, hunseen⟩, rfl⟩
          refine ⟨⟨⟨?_, hcs⟩, ?_⟩, ⟨⟨hnodup, hms, ?_⟩, ?_⟩, rfl⟩
          · intro hmem
            obtain ⟨c', hc', hname⟩ := List.mem_map.1 hmem
            exact (hfresh c' hc').1 hname
          · rintro c' (rfl | hc')
            · exact hc
            · exact (hfresh c' hc').2
          · rintro a ha b hb rfl
            obtain ⟨m, hm, rfl⟩ := List.mem_map.1 hb
            exact (hunseen m hm).1 ha
          · rintro m (hm | hm)
            · exact hout m hm
            · exact (hunseen m hm).2
        · rintro ⟨⟨⟨hfresh, hcs⟩, hunseen⟩, ⟨⟨-, hms, hdisjoint⟩, hnew⟩, rfl⟩
          refine ⟨⟨hcs, fun c' hc' => ⟨?_, hunseen c' (.inr hc')⟩⟩,
            ⟨hms, fun m hm => ⟨?_, hnew m (.inr hm)⟩⟩, rfl⟩
          · intro hname
            exact hfresh (List.mem_map.2 ⟨c', hc', hname⟩)
          · intro hmem
            exact hdisjoint _ hmem _ (List.mem_map_of_mem hm) rfl

theorem checkPins_eq_ok_iff {clusters : List String} {pins : List (String × String)} :
    checkPins clusters pins = .ok () ↔ ∀ p ∈ pins, p.2 ∈ clusters := by
  induction pins with
  | nil => simp [checkPins]
  | cons p pins ih =>
    unfold checkPins
    by_cases hp : p.2 ∈ clusters
    · rw [if_pos (List.contains_iff_mem.2 hp), ih]
      simp [hp]
    · rw [if_neg (by simpa using hp)]
      simp [hp]

/-! ## Refusals of the parts -/

/-- A refused name comes twice, the names seen so far included. -/
theorem of_checkMembers_error {seen : List String} {ms : List Member} {err : EnsembleError}
    (h : checkMembers seen ms = .error err) :
    ∃ name, err = .duplicateNode name ∧ 2 ≤ seen.count name + (ms.map (·.name)).count name := by
  induction ms generalizing seen with
  | nil => cases h
  | cons m ms ih =>
    rw [checkMembers] at h
    split at h
    case isTrue hm =>
      cases h
      have hseen : 0 < seen.count m.name := List.count_pos_iff.2 (List.contains_iff_mem.1 hm)
      refine ⟨m.name, rfl, ?_⟩
      rw [List.map_cons, List.count_cons_self]
      omega
    case isFalse =>
      obtain ⟨name, rfl, hcount⟩ := ih h
      refine ⟨name, rfl, ?_⟩
      rw [List.count_cons] at hcount
      rw [List.map_cons, List.count_cons]
      omega

theorem of_checkClusters_error {clusters members : List String} {cs : List ClusterPlan}
    {err : EnsembleError} (h : checkClusters clusters members cs = .error err) :
    (∃ name, err = .duplicateCluster name ∧
      2 ≤ clusters.count name + (cs.map (·.name)).count name) ∨
    (∃ name, err = .duplicateNode name ∧
      2 ≤ members.count name + ((cs.flatMap (·.members)).map (·.name)).count name) := by
  induction cs generalizing clusters members with
  | nil => cases h
  | cons c cs ih =>
    rw [checkClusters] at h
    split at h
    case isTrue hc =>
      cases h
      have hseen : 0 < clusters.count c.name := List.count_pos_iff.2 (List.contains_iff_mem.1 hc)
      refine .inl ⟨c.name, rfl, ?_⟩
      rw [List.map_cons, List.count_cons_self]
      omega
    case isFalse =>
      rw [List.flatMap_cons, List.map_append]
      cases hms : checkMembers members c.members with
      | error err' =>
        rw [hms] at h
        cases h
        obtain ⟨name, rfl, hcount⟩ := of_checkMembers_error hms
        refine .inr ⟨name, rfl, ?_⟩
        rw [List.count_append]
        omega
      | ok seen =>
        rw [hms] at h
        obtain ⟨-, -, rfl⟩ := checkMembers_eq_ok_iff.1 hms
        rcases ih h with ⟨name, rfl, hcount⟩ | ⟨name, rfl, hcount⟩
        · refine .inl ⟨name, rfl, ?_⟩
          rw [List.count_cons] at hcount
          rw [List.map_cons, List.count_cons]
          omega
        · refine .inr ⟨name, rfl, ?_⟩
          rw [List.count_append, List.count_reverse] at hcount
          rw [List.count_append]
          omega

theorem of_checkPins_error {clusters : List String} {pins : List (String × String)}
    {err : EnsembleError} (h : checkPins clusters pins = .error err) :
    ∃ p ∈ pins, err = .unknownPlacement p.1 p.2 ∧ p.2 ∉ clusters := by
  induction pins with
  | nil => cases h
  | cons p pins ih =>
    rw [checkPins] at h
    split at h
    case isTrue =>
      obtain ⟨q, hq, herr⟩ := ih h
      exact ⟨q, List.mem_cons_of_mem _ hq, herr⟩
    case isFalse hp =>
      cases h
      exact ⟨p, List.mem_cons_self, rfl, fun hmem => hp (List.contains_iff_mem.2 hmem)⟩

/-! ## The whole check -/

/-- **What is accepted.**  The check lets a configuration pass if
it is well-formed, and only then. -/
theorem validate_eq_ok_iff {e : Ensemble} : e.validate = .ok () ↔ e.WellFormed := by
  have hpins : ∀ clusters : List String, checkPins clusters e.pins.entries = .ok () ↔
      ∀ bucket cluster, e.pins.get? bucket = some cluster → cluster ∈ clusters := by
    intro clusters
    rw [checkPins_eq_ok_iff]
    constructor
    · intro h bucket cluster hp
      exact h _ (SortedMap.get?_eq_some.1 hp)
    · intro h p hp
      exact h p.1 p.2 (SortedMap.get?_eq_some.2 hp)
  unfold validate
  by_cases hpart : e.partitions = 0
  · rw [if_pos hpart]
    exact ⟨fun h => (by cases h), fun h => absurd hpart h.partitions⟩
  · rw [if_neg hpart]
    cases hcs : checkClusters [] [] e.clusters with
    | error err =>
      refine ⟨fun h => (by cases h), ?_⟩
      intro h
      rw [checkClusters_eq_ok_iff.2 ⟨⟨h.clusters, by simp⟩, ⟨h.members, by simp⟩, rfl⟩] at hcs
      cases hcs
    | ok seen =>
      obtain ⟨⟨hclusters, -⟩, ⟨hmembers, -⟩, rfl⟩ := checkClusters_eq_ok_iff.1 hcs
      refine (show _ ↔ _ from hpins _).trans ?_
      simp only [List.append_nil, List.mem_reverse]
      exact ⟨fun h => ⟨hpart, hclusters, hmembers, h⟩, fun h => h.pins⟩

/-- **What is refused** has the fault that the refusal names. -/
theorem has_of_validate {e : Ensemble} {err : EnsembleError} (h : e.validate = .error err) :
    e.Has err := by
  unfold validate at h
  split at h
  case isTrue hpart =>
    cases h
    exact hpart
  case isFalse =>
    cases hcs : checkClusters [] [] e.clusters with
    | error err' =>
      rw [hcs] at h
      cases h
      -- no name has been seen at first
      rcases of_checkClusters_error hcs with ⟨name, rfl, hcount⟩ | ⟨name, rfl, hcount⟩
      · rwa [List.count_nil, Nat.zero_add] at hcount
      · rwa [List.count_nil, Nat.zero_add] at hcount
    | ok seen =>
      rw [hcs] at h
      obtain ⟨-, -, rfl⟩ := checkClusters_eq_ok_iff.1 hcs
      obtain ⟨p, hp, rfl, hout⟩ := of_checkPins_error h
      refine ⟨SortedMap.get?_eq_some.2 hp, ?_⟩
      rwa [List.append_nil, List.mem_reverse] at hout

end BucketCluster.Ensemble
