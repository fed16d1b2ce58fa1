import BucketCluster.Network.Basic
import BucketCluster.Proofs.Lists

/-!
# Requests that come to an end

`complete` ends the sends of a request one after another, in an order of one's
choice.  Whatever the order, a request of which every send is answered is answered
by the merge of all answers, in the order in which they came, and not before the
last one (`answer_complete`).
-/

namespace BucketCluster

/-! ## Outcomes -/

/-- Reading back what was wrapped goes well. -/
theorem mapM_map_ok {α β ε : Type} (wrap : α → β) (read : β → Except ε α)
    (h : ∀ x, read (wrap x) = .ok x) (xs : List α) : (xs.map wrap).mapM read = .ok xs := by
  induction xs with
  | nil => rfl
  | cons x xs ih =>
    rw [List.map_cons, List.mapM_cons, h, ih]
    rfl

namespace SendOutcome

theorem collect_answered (as : List Answer) : collect (as.map answered) = .ok as :=
  mapM_map_ok answered result (fun _ => rfl) as

/-- An outcome is an answer, or it fails the request. -/
theorem answered_or (o : SendOutcome) : (∃ a, o = answered a) ∨ ∃ e, o.result = .error e := by
  cases o with
  | answered a => exact .inl ⟨a, rfl⟩
  | failed e => exact .inr ⟨e, rfl⟩
  | crashed reason => exact .inr ⟨_, rfl⟩

theorem result_answered {a : Answer} {e : ClusterError} : (answered a).result ≠ .error e := nofun

theorem collect_cons_answered (a : Answer) (os : List SendOutcome) :
    collect (answered a :: os) = (collect os).map (a :: ·) := by
  rw [collect, List.mapM_cons]
  show (os.mapM result >>= fun as => .ok (a :: as)) = (os.mapM result).map (a :: ·)
  cases os.mapM result <;> rfl

theorem collect_cons_error {o : SendOutcome} {e : ClusterError} (ho : o.result = .error e)
    (os : List SendOutcome) : collect (o :: os) = .error e := by
  rw [collect, List.mapM_cons, ho]
  rfl

/-- All outcomes are answers, and these are collected. -/
theorem collect_eq_ok {os : List SendOutcome} {as : List Answer} :
    collect os = .ok as ↔ os = as.map answered := by
  constructor
  · intro h
    induction os generalizing as with
    | nil =>
      cases h
      rfl
    | cons o os ih =>
      rcases o.answered_or with ⟨a, rfl⟩ | ⟨e, he⟩
      · rw [collect_cons_answered] at h
        obtain ⟨as', has', rfl⟩ := of_map_ok h
        rw [ih has']
        rfl
      · rw [collect_cons_error he] at h
        cases h
  · rintro rfl
    exact collect_answered as

/-- The first failure decides. -/
theorem collect_eq_error {os : List SendOutcome} {e : ClusterError} :
    collect os = .error e ↔
      ∃ (as : List Answer) (o : SendOutcome) (os' : List SendOutcome),
        os = as.map answered ++ o :: os' ∧ o.result = .error e := by
  constructor
  · intro h
    induction os with
    | nil => cases h
    | cons o os ih =>
      rcases o.answered_or with ⟨a, rfl⟩ | ⟨e', he'⟩
      · have hos : collect os = .error e := by
          rw [collect_cons_answered] at h
          cases hcollect : collect os with
          | ok as =>
            rw [hcollect] at h
            cases h
          | error e₁ =>
            rw [hcollect] at h
            exact h
        obtain ⟨as, o', os', rfl, ho'⟩ := ih hos
        exact ⟨a :: as, o', os', rfl, ho'⟩
      · rw [collect_cons_error he'] at h
        cases h
        exact ⟨[], o, os, rfl, he'⟩
  · rintro ⟨as, o, os', rfl, ho⟩
    induction as with
    | nil => exact collect_cons_error ho os'
    | cons a as ih =>
      rw [List.map_cons, List.cons_append, collect_cons_answered, ih]
      rfl

/-- With a failure at the end, there is a first one. -/
theorem collect_concat_error (os : List SendOutcome) {o : SendOutcome} {e : ClusterError}
    (ho : o.result = .error e) : ∃ e', collect (os ++ [o]) = .error e' := by
  induction os with
  | nil => exact ⟨e, collect_cons_error ho []⟩
  | cons o' os ih =>
    rcases o'.answered_or with ⟨a, rfl⟩ | ⟨e', he'⟩
    · obtain ⟨e', he'⟩ := ih
      refine ⟨e', ?_⟩
      rw [List.cons_append, collect_cons_answered, he']
      rfl
    · exact ⟨e', collect_cons_error he' _⟩

end SendOutcome

namespace Merge

theorem answer_values (parts : List Documents) :
    values.answer (parts.map .values) =
      .ok (.values (.ofList (parts.flatMap SortedMap.entries))) := by
  rw [answer, mapM_map_ok Answer.values Answer.asValues fun _ => rfl]
  rfl

theorem answer_keys (parts : List KeySet) :
    keys.answer (parts.map .keys) = .ok (.keys (.ofList (parts.flatMap SortedMap.entries))) := by
  rw [answer, mapM_map_ok Answer.keys Answer.asKeys fun _ => rfl]
  rfl

theorem answer_entries (order : Comparator) (range : KeyRange)
    (parts : List (List (Key × Document))) : (entries order range).answer (parts.map .entries) =
      .ok (.entries (range.truncate (KeyRange.sortEntries order parts.flatten))) := by
  rw [answer, mapM_map_ok Answer.entries Answer.asEntries fun _ => rfl]
  rfl

end Merge

namespace Request

/-- A request for which nothing has been sent yet. -/
def fresh (p : Plan) : Request := ⟨p.sends.map fun (n, c) => ⟨n, c, .ready⟩, p.merge, [], none⟩

theorem ofPlan_ok (p : Plan) : ofPlan (.ok p) = (fresh p).conclude := rfl

theorem length_fresh_sends (p : Plan) : (fresh p).sends.length = p.sends.length := List.length_map _

/-! ## Conclusions -/

/-- The answer of a request once all of its answers are in. -/
def merged (q : Request) (as : List Answer) : Except ClusterError Answer :=
  (q.merge.answer as).mapError .processing

/-- With nothing but answers so far, only the last one decides. -/
theorem conclude_of_answered {q : Request} {as : List Answer} (h : q.outcomes = as.map .answered) :
    q.conclude = if as.length = q.sends.length then
      { q with answer := some (q.merged as) } else q := by
  unfold conclude
  rw [h, SendOutcome.collect_answered, List.length_map]
  rfl

/-- As long as there is no answer, outcomes count. -/
theorem record_of_open {q : Request} (h : q.answer = none) (j : Nat) (s : Send) (o : SendOutcome)
    (left : Sending) :
    q.record j s o left = conclude
      { q.setSending j s left with outcomes := q.outcomes ++ [o] } := by
  have hset : (q.setSending j s left).answer = none := h
  unfold record
  simp only [hset]
  rfl

/-- After the answer, nobody asks for them. -/
theorem record_of_isSome {q : Request} (h : q.answer.isSome = true) (j : Nat) (s : Send)
    (o : SendOutcome) (left : Sending) : q.record j s o left = q.setSending j s left :=
  if_pos h

theorem sends_conclude (q : Request) : q.conclude.sends = q.sends := by
  unfold conclude
  split
  · rfl
  · split <;> rfl

/-- Either way, the send is left as given. -/
theorem sends_record (q : Request) (j : Nat) (s : Send) (o : SendOutcome) (left : Sending) :
    (q.record j s o left).sends = q.sends.set j { s with sending := left } := by
  unfold record
  simp only
  split
  · rfl
  · rw [sends_conclude]
    rfl

theorem record_of_answered {q : Request} {as : List Answer} (hnone : q.answer = none)
    (h : q.outcomes = as.map .answered) (j : Nat) (s : Send) (a : Answer) :
    (q.record j s (.answered a)).outcomes = (as ++ [a]).map .answered ∧
      (q.record j s (.answered a)).merge = q.merge ∧
      (q.record j s (.answered a)).answer =
        if as.length + 1 = q.sends.length then some (q.merged (as ++ [a])) else none := by
  have hout : q.outcomes ++ [.answered a] = (as ++ [a]).map .answered := by
    rw [h, List.map_append]
    rfl
  rw [record_of_open hnone, conclude_of_answered hout]
  simp only [setSending, List.length_append, List.length_set, List.length_singleton]
  split
  · exact ⟨hout, rfl, rfl⟩
  · exact ⟨hout, rfl, hnone⟩

/-! ## Ending all sends -/

/-- The request after sends have ended, one after another. -/
def complete (q : Request) : List (Nat × SendOutcome) → Request
  | [] => q
  | (j, o) :: ends =>
    match q.sends[j]? with
    | some s => (q.record j s o).complete ends
    | none => q.complete ends

theorem answer_complete_of_answered {answer : Nat → Answer} {js : List Nat} {q : Request}
    {as : List Answer} (hjs : ∀ j ∈ js, j < q.sends.length) (hne : js ≠ [])
    (hlen : as.length + js.length = q.sends.length)
    (hnone : q.answer = none) (hq : q.outcomes = as.map .answered) :
    (q.complete (js.map fun j => (j, .answered (answer j)))).answer =
      some (q.merged (as ++ js.map answer)) := by
  induction js generalizing q as with
  | nil => exact absurd rfl hne
  | cons j js ih =>
    obtain ⟨s, hs⟩ : ∃ s, q.sends[j]? = some s :=
      ⟨_, List.getElem?_eq_getElem (hjs j List.mem_cons_self)⟩
    obtain ⟨hout, hmerge, hanswer⟩ := record_of_answered hnone hq j s (answer j)
    have hsends := q.sends_record j s (.answered (answer j)) .ended
    simp only [List.map_cons, complete, hs]
    rw [List.length_cons] at hlen
    by_cases hlast : js = []
    · subst hlast
      rw [List.length_nil] at hlen
      rw [List.map_nil, complete, hanswer, if_pos (by omega)]
      rfl
    · have hpos := List.length_pos_iff.2 hlast
      have hrest := ih
        (fun i hi => by rw [hsends, List.length_set]; exact hjs i (List.mem_cons_of_mem _ hi)) hlast
        (by rw [hsends, List.length_set, List.length_append, List.length_singleton]; omega)
        (hanswer.trans (if_neg (by omega))) hout
      rw [hrest, merged, merged, hmerge, List.append_assoc]
      rfl

/-- In whatever order the answers come, all of them are merged. -/
theorem answer_complete (p : Plan) {js : List Nat} (hjs : js.Perm (List.range p.sends.length))
    (answer : Nat → Answer) :
    ((ofPlan (.ok p)).complete (js.map fun j => (j, .answered (answer j)))).answer =
      some ((p.merge.answer (js.map answer)).mapError .processing) := by
  have hlen : js.length = p.sends.length := hjs.length_eq.trans List.length_range
  have hnone : (fresh p).outcomes = ([] : List Answer).map .answered := rfl
  have hstart := conclude_of_answered hnone
  rw [List.length_nil, length_fresh_sends] at hstart
  rw [ofPlan_ok, hstart]
  by_cases hnil : js = []
  · subst hnil
    rw [List.length_nil] at hlen
    rw [if_pos hlen]
    rfl
  · have hpos := List.length_pos_iff.2 hnil
    rw [if_neg (by omega)]
    refine answer_complete_of_answered ?_ hnil ?_ rfl hnone
    · intro j hj
      rw [length_fresh_sends]
      exact List.mem_range.1 (hjs.mem_iff.1 hj)
    · rw [length_fresh_sends, List.length_nil, Nat.zero_add, hlen]

end Request

end BucketCluster
