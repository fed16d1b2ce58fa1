import BucketCluster.Proofs.Network.Following

/-!
# Requests with an answer

What can become of a request in a step, whatever the outcomes of its sends are, is
listed once (`Request.Step`).  As long as there is no answer, every send is open or has
brought one of the outcomes, and a good answer comes when all of them have
(`Request.Settled`).  After an error, sends may still be open: they come further until
they are cancelled, but no step changes the answer (`Step.answer_eq`).
-/

namespace BucketCluster

namespace Request

/-- Without an answer, all sends are open or have ended; a good answer needs all of them. -/
structure Settled (q : Request) : Prop where
  complete : ∀ a, q.answer = some (.ok a) → ∀ s ∈ q.sends, s.hasEnded = true
  pending : q.answer = none → ∀ s ∈ q.sends, s.isOpen = true ∨ s.hasEnded = true
  counted : q.answer = none → q.outcomes.length = q.sends.countP Send.hasEnded

/-- What a step does to a request, with the send that ends in it and its outcome. -/
inductive Step (q : Request) : Option (Nat × SendOutcome) → Request → Prop where
  | stays : q.Step none q
  | hands {j number : Nat} {s : Send} (hs : q.sends[j]? = some s) (hready : s.sending = .ready) :
      q.Step none (q.setSending j s (.waiting number))
  /-- A send that ends without a reply may leave something behind, and fails the request. -/
  | ends {j : Nat} {s : Send} {left : Sending} (o : SendOutcome) (hs : q.sends[j]? = some s)
      (hopen : s.isOpen = true) (hnone : q.answer = none)
      (hleft : Send.isOpen { s with sending := left } = false)
      (hcounts : left = .ended ∨ ∃ e, o.result = .error e) :
      q.Step (some (j, o)) (q.record j s o left)
  /-- What sends do after the answer has no consequences for the request. -/
  | trails {j : Nat} {s : Send} {sending : Sending} (hs : q.sends[j]? = some s)
      (hend : s.hasEnded = false) (ha : q.answer.isSome = true)
      (hclosed : s.isOpen = false → Send.isOpen { s with sending := sending } = false) :
      q.Step none (q.setSending j s sending)

variable {q q' : Request} {j : Nat} {s : Send} {e? : Option (Nat × SendOutcome)}

/-! ## Sends and answers -/

theorem settled_of_error {e : ClusterError} (h : q.answer = some (.error e)) : q.Settled := by
  refine ⟨fun a ha => ?_, fun ha => ?_, fun ha => ?_⟩
  · cases h.symm.trans ha
  · cases h.symm.trans ha
  · cases h.symm.trans ha

theorem settled_conclude (hnone : q.answer = none)
    (hpending : ∀ s ∈ q.sends, s.isOpen = true ∨ s.hasEnded = true)
    (hlen : q.outcomes.length = q.sends.countP Send.hasEnded) : q.conclude.Settled := by
  unfold conclude
  split
  · exact settled_of_error rfl
  · split
    · next hall =>
      refine ⟨fun _ _ s hs => ?_, nofun, nofun⟩
      exact List.countP_eq_length.1 (hlen.symm.trans hall) s hs
    · refine ⟨fun a ha => ?_, fun _ => hpending, fun _ => hlen⟩
      cases hnone.symm.trans ha

theorem settled_ofPlan (plan : Except ClusterError Plan) : (ofPlan plan).Settled := by
  cases plan with
  | error e => exact settled_of_error rfl
  | ok p =>
    have hready : ∀ s ∈ (fresh p).sends, s.sending = .ready := by
      intro s hs
      obtain ⟨send, -, rfl⟩ := List.mem_map.1 hs
      rfl
    refine settled_conclude (q := fresh p) rfl (fun s hs => .inl ?_) (List.countP_eq_zero.2 ?_).symm
    · rw [Send.isOpen, hready s hs]
    · intro s hs
      rw [Send.hasEnded, hready s hs]
      exact Bool.false_ne_true

/-- After a good answer nothing is under way. -/
theorem Settled.exists_error (h : q.Settled) (hs : q.sends[j]? = some s) (hend : s.hasEnded = false)
    (ha : q.answer.isSome = true) : ∃ e, q.answer = some (.error e) := by
  obtain ⟨a, ha⟩ := Option.isSome_iff_exists.1 ha
  cases a with
  | error e => exact ⟨e, ha⟩
  | ok a =>
    rw [h.complete a ha s (List.mem_of_getElem? hs)] at hend
    cases hend

/-- A send gets further, and there is still no answer. -/
theorem Settled.setSending (h : q.Settled) (hs : q.sends[j]? = some s) (hopen : s.isOpen = true)
    {sending : Sending} (hsending : Send.isOpen { s with sending := sending } = true) :
    (q.setSending j s sending).Settled := by
  by_cases ha : q.answer.isSome = true
  · obtain ⟨e, he⟩ := h.exists_error hs (hasEnded_of_isOpen hopen) ha
    exact settled_of_error he
  · have hnone : q.answer = none := Option.not_isSome_iff_eq_none.1 ha
    have hcount := countP_set_add Send.hasEnded hs { s with sending := sending }
    rw [hasEnded_of_isOpen hopen, hasEnded_of_isOpen hsending] at hcount
    refine ⟨fun a ha => ?_, fun _ s' hs' => ?_, fun _ => ?_⟩
    · cases hnone.symm.trans ha
    · rcases List.mem_or_eq_of_mem_set hs' with hs' | rfl
      · exact h.pending hnone s' hs'
      · exact .inl hsending
    · exact (h.counted hnone).trans hcount.symm

/-- A send ends. -/
theorem Settled.record (h : q.Settled) (hs : q.sends[j]? = some s) (hopen : s.isOpen = true)
    (hnone : q.answer = none) {o : SendOutcome} {left : Sending}
    (hcounts : left = .ended ∨ ∃ e, o.result = .error e) : (q.record j s o left).Settled := by
  rw [record_of_open hnone]
  rcases hcounts with rfl | ⟨e, he⟩
  · have hcount := countP_set_add Send.hasEnded hs { s with sending := .ended }
    rw [hasEnded_of_isOpen hopen] at hcount
    refine settled_conclude hnone (fun s' hs' => ?_) ?_
    · rcases List.mem_or_eq_of_mem_set hs' with hs' | rfl
      · exact h.pending hnone s' hs'
      · exact .inr rfl
    · rw [List.length_append, List.length_singleton, h.counted hnone]
      exact hcount.symm
  · obtain ⟨e', he'⟩ := SendOutcome.collect_concat_error q.outcomes he
    refine settled_of_error (e := e') ?_
    unfold conclude
    simp only [he']

theorem Settled.step (h : q.Settled) (hq' : q.Step e? q') : q'.Settled := by
  cases hq' with
  | stays => exact h
  | hands hs hready => exact h.setSending hs (by rw [Send.isOpen, hready]) rfl
  | ends o hs hopen hnone hleft hcounts => exact h.record hs hopen hnone hcounts
  | trails hs hend ha hclosed =>
    obtain ⟨e, he⟩ := h.exists_error hs hend ha
    exact settled_of_error he

/-- An answer stands. -/
theorem Step.answer_eq (h : q.Step e? q') {a : Except ClusterError Answer}
    (ha : q.answer = some a) : q'.answer = some a := by
  cases h with
  | stays => exact ha
  | hands => exact ha
  | trails => exact ha
  | ends o hs hopen hnone => cases hnone.symm.trans ha

end Request

end BucketCluster
