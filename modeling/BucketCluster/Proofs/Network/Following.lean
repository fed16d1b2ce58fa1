import BucketCluster.Proofs.Coordination.Delivery
import BucketCluster.Proofs.Lists
import BucketCluster.Proofs.Network.Requests

/-!
# Requests that follow a plan

A request follows a plan that delivers an answer if its outcomes so far are those of
the sends that have ended, in some order, and if it has the answer just when all of
them have.  It follows the plan from the start (`follows_ofPlan`), and goes on doing
so with every send that ends with the reply of its node (`Follows.record`).
-/

namespace BucketCluster

/-- What is sent, and where. -/
def Send.target (s : Send) : Node × Command := (s.node, s.command)

def Send.hasEnded (s : Send) : Bool := s.sending == .ended

theorem hasEnded_of_isOpen {s : Send} (hs : s.isOpen = true) : s.hasEnded = false := by
  unfold Send.isOpen at hs
  unfold Send.hasEnded
  cases h : s.sending with
  | ready => rfl
  | waiting number => rfl
  | ended => rw [h] at hs; cases hs
  | stray => rfl
  | abandoned => rfl

namespace Request

/-- The request has collected what the ended sends of the plan have brought. -/
structure Collects (q : Request) (p : Plan) (stores : String → Store) : Prop where
  sends : q.sends.map Send.target = p.sends
  merge : q.merge = p.merge
  outcomes : ∃ ended : List (Node × Command),
    ended.Perm ((q.sends.filter Send.hasEnded).map Send.target) ∧
    q.outcomes = ended.map fun send => .ofReply (Plan.replyTo stores send)

/-- The request collects what the plan brings, and has the answer once it has everything. -/
structure Follows (q : Request) (p : Plan) (stores : String → Store)
    (answer : Except ClusterError Answer) : Prop
    extends Collects q p stores where
  answer : q.answer = if q.sends.all Send.hasEnded then some answer else none

variable {q : Request} {p : Plan} {stores : String → Store} {answer : Except ClusterError Answer}

/-! ## Conclusions -/

theorem conclude_of_merged (h : q.Collects p stores) (part : Node × Command → Answer)
    (hpart : ∀ send ∈ p.sends, Plan.replyTo stores send = .ok (part send))
    (hmerge : ∀ sends : List (Node × Command), sends.Perm p.sends →
      (p.merge.answer (sends.map part)).mapError .processing = answer) :
    q.conclude = if q.sends.all Send.hasEnded then { q with answer := some answer } else q := by
  obtain ⟨ended, hperm, hout⟩ := h.outcomes
  have hmem : ∀ send ∈ ended, send ∈ p.sends := by
    intro send hs
    rw [← h.sends]
    exact (List.filter_sublist.map _).subset (hperm.mem_iff.1 hs)
  have hanswered : q.outcomes = (ended.map part).map .answered := by
    rw [hout, List.map_map]
    exact List.map_congr_left fun send hs => by rw [hpart send (hmem send hs)]; rfl
  have hlen : (ended.map part).length = (q.sends.filter Send.hasEnded).length := by
    rw [List.length_map, hperm.length_eq, List.length_map]
  rw [conclude_of_answered hanswered, hlen]
  by_cases hall : q.sends.all Send.hasEnded = true
  · have hfilter : q.sends.filter Send.hasEnded = q.sends :=
      List.filter_eq_self.2 (List.all_eq_true.1 hall)
    rw [hfilter, h.sends] at hperm
    rw [hfilter, if_pos rfl, if_pos hall, merged, h.merge, hmerge ended hperm]
  · rw [if_neg (fun heq => hall ?_), if_neg hall]
    exact List.all_eq_true.2 (List.length_filter_eq_length_iff.1 heq)

theorem conclude_of_failed (h : q.Collects p stores) {send : Node × Command} {e : ProcessingError}
    (hsends : p.sends = [send]) (hreply : Plan.replyTo stores send = .error e) :
    q.conclude =
      if q.sends.all Send.hasEnded then
        { q with answer := some (.error (.processing e)) } else q := by
  obtain ⟨ended, hperm, hout⟩ := h.outcomes
  have hmap := h.sends
  rw [hsends] at hmap
  obtain ⟨s, hs, htarget⟩ := List.map_eq_singleton_iff.1 hmap
  have hall : q.sends.all Send.hasEnded = s.hasEnded := by
    rw [hs, List.all_cons, List.all_nil, Bool.and_true]
  rw [hs] at hperm
  rw [hall]
  cases hend : s.hasEnded with
  | true =>
    rw [List.filter_cons_of_pos hend, List.filter_nil, List.map_singleton, htarget,
      List.perm_singleton] at hperm
    rw [hperm, List.map_singleton, hreply] at hout
    unfold conclude
    rw [hout]
    rfl
  | false =>
    rw [List.filter_cons_of_neg (by simp [hend]), List.filter_nil, List.map_nil,
      List.perm_nil] at hperm
    rw [hperm, List.map_nil] at hout
    unfold conclude
    rw [hout, hs]
    rfl

/-- Whatever kind of plan it is, the request is answered with its last send. -/
theorem Collects.conclude (h : q.Collects p stores) (hd : p.Delivers stores answer) :
    q.conclude = if q.sends.all Send.hasEnded then { q with answer := some answer } else q := by
  cases hd with
  | merged part hpart hmerge => exact conclude_of_merged h part hpart hmerge
  | failed send e hsends hreply hanswer =>
    rw [hanswer]
    exact conclude_of_failed h hsends hreply

theorem Collects.follows (h : q.Collects p stores) (hd : p.Delivers stores answer)
    (hnone : q.answer = none) : q.conclude.Follows p stores answer := by
  rw [h.conclude hd]
  by_cases hall : q.sends.all Send.hasEnded = true
  · rw [if_pos hall]
    exact ⟨⟨h.sends, h.merge, h.outcomes⟩, by rw [if_pos hall]⟩
  · rw [if_neg hall]
    exact ⟨h, by rw [if_neg hall, hnone]⟩

/-! ## Steps of a request -/

theorem fresh_targets (p : Plan) : (fresh p).sends.map Send.target = p.sends := by
  unfold fresh
  rw [List.map_map]
  exact List.map_id _

/-- Nothing has ended yet. -/
theorem follows_ofPlan (hd : p.Delivers stores answer) :
    (ofPlan (.ok p)).Follows p stores answer := by
  rw [ofPlan_ok]
  refine Collects.follows ⟨fresh_targets p, rfl, [], ?_, rfl⟩ hd rfl
  have hnone : (fresh p).sends.filter Send.hasEnded = [] := by
    rw [List.filter_eq_nil_iff]
    intro s hs
    obtain ⟨send, -, rfl⟩ := List.mem_map.1 hs
    exact Bool.false_ne_true
  rw [hnone]
  rfl

/-- How far a send has come does not matter to what is sent. -/
theorem map_target_set {sends : List Send} {j : Nat} {s : Send} (hj : sends[j]? = some s)
    (sending : Sending) :
    (sends.set j { s with sending := sending }).map Send.target = sends.map Send.target :=
  map_set_of_eq hj rfl

/-- A send that has not ended keeps the request open. -/
theorem Follows.answer_eq_none (h : q.Follows p stores answer) {s : Send} (hs : s ∈ q.sends)
    (hend : s.hasEnded = false) : q.answer = none := by
  rw [h.answer, if_neg]
  intro hall
  rw [List.all_eq_true.1 hall s hs] at hend
  cases hend

/-- A send goes out. -/
theorem Follows.setWaiting (h : q.Follows p stores answer) {j : Nat} {s : Send}
    (hj : q.sends[j]? = some s) (hs : s.hasEnded = false) (number : Nat) :
    (q.setSending j s (.waiting number)).Follows p stores answer := by
  have hmem := List.mem_of_getElem? hj
  have hlt := (List.getElem?_eq_some_iff.1 hj).1
  have hset : (q.setSending j s (.waiting number)).sends.filter Send.hasEnded =
      q.sends.filter Send.hasEnded :=
    filter_set_of_neg hj hs rfl
  refine ⟨⟨?_, h.merge, ?_⟩, ?_⟩
  · rw [← h.sends]
    exact map_target_set hj _
  · rw [hset]
    exact h.outcomes
  · rw [if_neg, setSending]
    · exact h.answer_eq_none hmem hs
    · intro hall
      have hnew := List.all_eq_true.1 hall _ (List.mem_set hlt _)
      cases hnew

/-- A send ends with the reply of its node. -/
theorem Follows.record (h : q.Follows p stores answer) (hd : p.Delivers stores answer) {j : Nat}
    {s : Send} (hj : q.sends[j]? = some s) (hs : s.hasEnded = false) :
    (q.record j s (.ofReply (Plan.replyTo stores s.target))).Follows p stores answer := by
  obtain ⟨ended, hperm, hout⟩ := h.outcomes
  have hnone := h.answer_eq_none (List.mem_of_getElem? hj) hs
  rw [record_of_open hnone]
  refine Collects.follows ⟨?_, h.merge, ended ++ [s.target], ?_, ?_⟩ hd hnone
  · rw [← h.sends]
    exact map_target_set hj _
  · have hset := (filter_set_perm (b := { s with sending := .ended }) hj hs rfl).map Send.target
    exact (List.perm_append_singleton ..).trans ((hperm.cons _).trans hset.symm)
  · rw [List.map_append, ← hout]
    rfl

end Request

end BucketCluster
