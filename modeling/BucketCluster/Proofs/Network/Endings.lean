import BucketCluster.Network.Settle
import BucketCluster.Proofs.Network.Answered
import BucketCluster.Proofs.Network.Sending

/-!
# How sends end, and what becomes of the request

The sends of a request end one after the other, in an order that nobody controls, each with an
answer, a failure or a crash.  What the outcomes so far come to is settled by the first one that
is no answer (`SendOutcome.collect_eq_error`), and without such a one by all answers together
(`Plan.Decides`).

A `Course` of a network notes how the sends of one request end until it is answered, whatever the
nodes do and whatever becomes of the links.  At any time of it the request has the answer that
these endings decide (`Request.Reckons`).
-/

namespace BucketCluster

/-! ## What outcomes decide -/

/-- What the outcomes of the sends, in the order in which they came, decide about the request. -/
inductive Plan.Decides (p : Plan) : List SendOutcome → Option (Except ClusterError Answer) →
    Prop where
  /-- Nothing yet, as long as answers are missing. -/
  | pending {as : List Answer} (h : as.length < p.sends.length) : p.Decides (as.map .answered) none
  | merged {as : List Answer} (h : as.length = p.sends.length) :
      p.Decides (as.map .answered) (some ((p.merge.answer as).mapError .processing))
  /-- The first failure ends it. -/
  | failed {as : List Answer} {o : SendOutcome} {e : ClusterError} (h : o.result = .error e) :
      p.Decides (as.map .answered ++ [o]) (some (.error e))

/-- One more answer decides if it is the last one. -/
theorem Plan.decides_concat {p : Plan} {as : List Answer} (h : as.length < p.sends.length)
    (a : Answer) : p.Decides (as.map .answered ++ [.answered a])
      (if as.length + 1 = p.sends.length then
        some ((p.merge.answer (as ++ [a])).mapError .processing) else none) := by
  have hlen : (as ++ [a]).length = as.length + 1 := List.length_append
  have hmap : (as ++ [a]).map SendOutcome.answered = as.map .answered ++ [.answered a] :=
    List.map_append
  rw [← hmap]
  split
  · next hall => exact .merged (hlen.trans hall)
  · next hmore => exact .pending (by omega)

namespace Request

/-- With a failure after answers, the request has failed. -/
theorem record_of_failed {q : Request} {as : List Answer} (hnone : q.answer = none)
    (h : q.outcomes = as.map .answered) (j : Nat) (s : Send) (left : Sending) {o : SendOutcome}
    {e : ClusterError} (ho : o.result = .error e) :
    (q.record j s o left).outcomes = as.map .answered ++ [o] ∧
      (q.record j s o left).merge = q.merge ∧ (q.record j s o left).answer = some (.error e) := by
  have hcollect : SendOutcome.collect (q.outcomes ++ [o]) = .error e :=
    SendOutcome.collect_eq_error.2 ⟨as, o, [], by rw [h], ho⟩
  rw [record_of_open hnone]
  unfold conclude
  simp only [hcollect]
  exact ⟨congrArg (· ++ [o]) h, rfl, trivial⟩

/-- The sends of the plan in these places have ended like this, in this order, and the
request knows no more than that. -/
structure Reckons (q : Request) (p : Plan) (ends : List (Nat × SendOutcome)) : Prop where
  targets : q.targets = p.sends
  merge : q.merge = p.merge
  settled : q.Settled
  outcomes : q.outcomes = ends.map (·.2)
  closed : ∀ j ∈ ends.map (·.1), ∃ s, q.sends[j]? = some s ∧ s.isOpen = false
  nodup : (ends.map (·.1)).Nodup
  answer : p.Decides (ends.map (·.2)) q.answer

variable {q q' : Request} {p : Plan} {ends : List (Nat × SendOutcome)}
  {e? : Option (Nat × SendOutcome)} {j : Nat} {s : Send}

theorem Reckons.length_sends (h : q.Reckons p ends) : q.sends.length = p.sends.length := by
  rw [← h.targets]
  exact List.length_map _ |>.symm

theorem Reckons.lt_of_mem (h : q.Reckons p ends) (hj : j ∈ ends.map (·.1)) :
    j < p.sends.length := by
  obtain ⟨s, hs, -⟩ := h.closed j hj
  rw [← h.length_sends]
  exact (List.getElem?_eq_some_iff.1 hs).1

/-- The request has just come in. -/
theorem reckons_ofPlan (p : Plan) : (ofPlan (.ok p)).Reckons p [] := by
  have hnone : (fresh p).outcomes = ([] : List Answer).map .answered := rfl
  have hstart : ofPlan (.ok p) = _ := conclude_of_answered hnone
  rw [List.length_nil, length_fresh_sends] at hstart
  refine ⟨targets_ofPlan p, ?_, settled_ofPlan _, ?_, nofun, List.nodup_nil, ?_⟩
  · rw [hstart]
    split <;> rfl
  · rw [hstart]
    split <;> rfl
  · show p.Decides (([] : List Answer).map .answered) _
    rw [hstart]
    split
    · next hempty => exact .merged hempty
    · next hsome => exact .pending (Nat.pos_of_ne_zero (Ne.symm hsome))

/-- An open send has not ended before. -/
theorem Reckons.not_mem_of_isOpen (h : q.Reckons p ends) (hs : q.sends[j]? = some s)
    (hopen : s.isOpen = true) : j ∉ ends.map (·.1) := by
  intro hj
  obtain ⟨s', hs', hclosed⟩ := h.closed j hj
  cases hs.symm.trans hs'
  cases hopen.symm.trans hclosed

/-- Sends that have ended stay so, whichever send gets further. -/
theorem Reckons.closed_set (h : q.Reckons p ends) (hs : q.sends[j]? = some s) {sending : Sending}
    (hkeeps : s.isOpen = false → Send.isOpen { s with sending := sending } = false) {j' : Nat}
    (hj' : j' ∈ ends.map (·.1)) :
    ∃ s', (q.sends.set j { s with sending := sending })[j']? = some s' ∧ s'.isOpen = false := by
  obtain ⟨s', hs', hclosed⟩ := h.closed j' hj'
  by_cases hj : j = j'
  · subst hj
    cases hs.symm.trans hs'
    exact ⟨_, List.getElem?_set_self (List.getElem?_eq_some_iff.1 hs).1, hkeeps hclosed⟩
  · exact ⟨s', (List.getElem?_set_ne hj).trans hs', hclosed⟩

/-- A send gets further without an outcome. -/
theorem Reckons.setSending (h : q.Reckons p ends) (hs : q.sends[j]? = some s) {sending : Sending}
    (hkeeps : s.isOpen = false → Send.isOpen { s with sending := sending } = false)
    (hsettled : (q.setSending j s sending).Settled) :
    (q.setSending j s sending).Reckons p ends where
  targets := (targets_setSending hs _).trans h.targets
  merge := h.merge
  settled := hsettled
  outcomes := h.outcomes
  closed _ hj' := h.closed_set hs hkeeps hj'
  nodup := h.nodup
  answer := h.answer

/-- Without an answer, all outcomes so far are answers, and some are missing. -/
theorem Reckons.answered_of_none (h : q.Reckons p ends) (hnone : q.answer = none) :
    ∃ as : List Answer, q.outcomes = as.map .answered ∧ as.length < p.sends.length := by
  have hdecides := h.answer
  rw [hnone, ← h.outcomes] at hdecides
  generalize q.outcomes = os at hdecides
  cases hdecides with
  | pending hlt => exact ⟨_, rfl, hlt⟩

theorem Reckons.closed_record (h : q.Reckons p ends) (hs : q.sends[j]? = some s) {left : Sending}
    (hleft : Send.isOpen { s with sending := left } = false) (o : SendOutcome) :
    ∀ j' ∈ (ends ++ [(j, o)]).map (·.1), ∃ s', (q.record j s o left).sends[j']? = some s' ∧
    s'.isOpen = false := by
  intro j' hj'
  rw [sends_record]
  rw [List.map_append, List.mem_append, List.map_singleton, List.mem_singleton] at hj'
  rcases hj' with hj' | rfl
  · exact h.closed_set hs (fun _ => hleft) hj'
  · exact ⟨_, List.getElem?_set_self (List.getElem?_eq_some_iff.1 hs).1, hleft⟩

theorem Reckons.nodup_record (h : q.Reckons p ends) (hs : q.sends[j]? = some s)
    (hopen : s.isOpen = true) (o : SendOutcome) : ((ends ++ [(j, o)]).map (·.1)).Nodup := by
  rw [List.map_append, List.map_singleton, ← List.concat_eq_append, List.nodup_concat]
  exact ⟨h.not_mem_of_isOpen hs hopen, h.nodup⟩

/-- The outcome of the next send decides, unless answers are missing still. -/
theorem Reckons.record (h : q.Reckons p ends) (hs : q.sends[j]? = some s) (hopen : s.isOpen = true)
    (hnone : q.answer = none) {o : SendOutcome} {left : Sending}
    (hleft : Send.isOpen { s with sending := left } = false)
    (hcounts : left = .ended ∨ ∃ e, o.result = .error e) :
    (q.record j s o left).Reckons p (ends ++ [(j, o)]) := by
  obtain ⟨as, has, hlt⟩ := h.answered_of_none hnone
  have hends : (ends ++ [(j, o)]).map (·.2) = as.map .answered ++ [o] := by
    rw [List.map_append, ← h.outcomes, has]
    rfl
  have htargets : (q.record j s o left).targets = p.sends :=
    (targets_record hs o left).trans h.targets
  have hsettled := h.settled.record hs hopen hnone hcounts
  have hclosed := h.closed_record hs hleft o
  have hnodup := h.nodup_record hs hopen o
  rcases o.answered_or with ⟨a, rfl⟩ | ⟨e, he⟩
  · obtain rfl : left = .ended := hcounts.resolve_right fun ⟨e, he⟩ =>
      SendOutcome.result_answered he
    obtain ⟨hout, hmerge, hanswer⟩ := record_of_answered hnone has j s a
    refine ⟨htargets, hmerge.trans h.merge, hsettled, ?_, hclosed, hnodup, ?_⟩
    · rw [hout, hends, List.map_append]
      rfl
    · rw [hends, hanswer, h.length_sends, merged, h.merge]
      exact Plan.decides_concat hlt a
  · obtain ⟨hout, hmerge, hanswer⟩ := record_of_failed hnone has j s left he
    refine ⟨htargets, hmerge.trans h.merge, hsettled, ?_, hclosed, hnodup, ?_⟩
    · rw [hout, hends]
    · rw [hends, hanswer]
      exact .failed he

theorem Reckons.step (h : q.Reckons p ends) (hq' : q.Step e? q') :
    q'.Reckons p (ends ++ e?.toList) := by
  have hsettled := h.settled.step hq'
  cases hq' with
  | stays =>
    rw [Option.toList_none, List.append_nil]
    exact h
  | hands hs hready =>
    rw [Option.toList_none, List.append_nil]
    refine h.setSending hs (fun hclosed => ?_) hsettled
    rw [Send.isOpen, hready] at hclosed
    cases hclosed
  | ends o hs hopen hnone hleft hcounts => exact h.record hs hopen hnone hleft hcounts
  | trails hs hend ha hkeeps =>
    rw [Option.toList_none, List.append_nil]
    exact h.setSending hs hkeeps hsettled

end Request

namespace Network

/-! ## The course of a request -/

/-- The outcome of the send that an event is about, if the send ends with it. -/
def outcome? (n : Network) (s : Send) : Event → Option SendOutcome
  | .send .. =>
    match n.dispatch s.node s.command with
    | .ok _ => none
    | .error o => some o
  | .receive .. =>
    match s.sending with
    | .waiting number => do
      let x ← n.processors.get? s.node.name
      let reply ← x.reply? number
      some (n.outcomeOf s.node reply)
    | _ => none
  | .fail _ _ report => (n.linkFailure? s.node report).map fun e => .failed (.communication e)
  | .cancel .. => none
  | .node .. => none
  | .request _ => none

/-- The send of request `i` that ends in a step, and its outcome, unless there is an
answer already. -/
def ending? (n : Network) (i : Nat) (ev : Event) : Option (Nat × SendOutcome) := do
  let (i', j) ← ev.place?
  if i' = i then
    let q ← n.requests[i]?
    let s ← q.sends[j]?
    if q.answer.isSome then none else (n.outcome? s ev).map (j, ·)
  else none

/-- The network after some steps, with how the sends of request `i` have ended on the way. -/
inductive Course (n₀ : Network) (i : Nat) : List (Nat × SendOutcome) → Network → Prop where
  | start : Course n₀ i [] n₀
  | step {ends : List (Nat × SendOutcome)} {n n' : Network} {ev : Event} (h : Course n₀ i ends n)
      (hn' : n.step ev = some n') : Course n₀ i (ends ++ (n.ending? i ev).toList) n'
  /-- Nodes come and go, links break, and scripts take their place. -/
  | changes {ends : List (Nat × SendOutcome)} {n : Network} (h : Course n₀ i ends n)
      (processors : SortedMap String Processor) (attached : SortedMap String Link)
      (scripts : SortedMap String Script) :
      Course n₀ i ends ⟨processors, attached, scripts, n.requests⟩

variable {n₀ n n' : Network} {i j : Nat} {q : Request} {s : Send} {ev : Event} {p : Plan}
  {ends : List (Nat × SendOutcome)} {o : SendOutcome}

theorem ending?_of_place (hq : n.requests[i]? = some q) (hs : q.sends[j]? = some s)
    (hplace : ev.place? = some (i, j)) :
    n.ending? i ev = if q.answer.isSome then none else (n.outcome? s ev).map (j, ·) := by
  simp only [ending?, hplace, if_true, hq, hs, Option.bind_eq_bind, Option.bind_some]

/-- Only its own sends end for a request. -/
theorem ending?_eq_none (h : ∀ j, ev.place? ≠ some (i, j)) : n.ending? i ev = none := by
  unfold ending?
  cases hplace : ev.place? with
  | none => rfl
  | some place =>
    obtain ⟨i', j⟩ := place
    exact if_neg fun hi => h j (by rw [hplace, hi])

/-- An event that gives a send an outcome ends it, and the outcome counts unless the request
is answered. -/
theorem step_of_outcome {left : Sending} (hq : n.requests[i]? = some q) (hs : q.sends[j]? = some s)
    (hplace : ev.place? = some (i, j)) (ho : n.outcome? s ev = some o) (hopen : s.isOpen = true)
    (hleft : Send.isOpen { s with sending := left } = false)
    (hcounts : left = .ended ∨ ∃ e, o.result = .error e) :
    q.Step (n.ending? i ev) (q.record j s o left) := by
  rw [ending?_of_place hq hs hplace, ho]
  by_cases ha : q.answer.isSome = true
  · rw [if_pos ha, Request.record_of_isSome ha]
    exact .trails hs (hasEnded_of_isOpen hopen) ha fun _ => hleft
  · rw [if_neg ha]
    exact .ends o hs hopen (Option.not_isSome_iff_eq_none.1 ha) hleft hcounts

/-- What happens without an outcome leaves no traces at all, or comes after the answer. -/
theorem step_of_trail {sending : Sending} (hq : n.requests[i]? = some q) (hs : q.sends[j]? = some s)
    (hplace : ev.place? = some (i, j)) (ha : q.answer.isSome = true) (hend : s.hasEnded = false)
    (hkeeps : s.isOpen = false → Send.isOpen { s with sending := sending } = false) :
    q.Step (n.ending? i ev) (q.setSending j s sending) := by
  rw [ending?_of_place hq hs hplace, if_pos ha]
  exact .trails hs hend ha hkeeps

/-- Commands stray only after the answer. -/
theorem step_of_stray (hq : n.requests[i]? = some q) (hs : q.sends[j]? = some s)
    (hplace : ev.place? = some (i, j)) (hsettled : q.Settled) (hstray : s.sending = .stray) :
    q.Step (n.ending? i ev) (q.setSending j s .abandoned) := by
  have hend : s.hasEnded = false := by
    rw [Send.hasEnded, hstray]
    rfl
  refine step_of_trail hq hs hplace (Option.ne_none_iff_isSome.1 fun hnone => ?_) hend fun _ => rfl
  rcases hsettled.pending hnone s (List.mem_of_getElem? hs) with hopen | hended
  · rw [Send.isOpen, hstray] at hopen
    cases hopen
  · cases hend.symm.trans hended

/-- Of what a step does to a request, this is what its answer depends on. -/
theorem step_of_request (hq : n.requests[i]? = some q) (hsettled : q.Settled)
    (h : n.step ev = some n') : ∃ q', n'.requests[i]? = some q' ∧ q.Step (n.ending? i ev) q' := by
  obtain ⟨q', hq', hacts⟩ := acts_of_step hq h
  refine ⟨q', hq', ?_⟩
  cases hacts with
  | rests hev =>
    rw [ending?_eq_none hev]
    exact .stays
  | @hands j s x c sending hs hsending hx hc ho =>
    rcases hsending with ⟨hready, rfl⟩ | ⟨hstray, rfl⟩
    · have hnone : n.outcome? s (.send i j) = none := by rw [outcome?, ho]
      rw [ending?_of_place hq hs rfl, hnone, Option.map_none, ite_self]
      exact .hands hs hready
    · exact step_of_stray hq hs rfl hsettled hstray
  | fails hs hready ho =>
    exact step_of_outcome hq hs rfl (by rw [outcome?, ho])
      (by rw [Send.isOpen, hready]) rfl (.inl rfl)
  | loses hs hstray ho => exact step_of_stray hq hs rfl hsettled hstray
  | @receives j number s x reply hs hwaiting hx hreply =>
    have ho : n.outcome? s (.receive i j) = some (n.outcomeOf s.node reply) := by
      simp only [outcome?, hwaiting, hx, hreply, Option.bind_eq_bind, Option.bind_some]
    exact step_of_outcome hq hs rfl ho (by rw [Send.isOpen, hwaiting]) rfl (.inl rfl)
  | @breaks j report s e left hs he hleft =>
    have ho : n.outcome? s (.fail i j report) = some (.failed (.communication e)) := by
      rw [outcome?, he]
      rfl
    rcases hleft with ⟨hready, rfl⟩ | ⟨⟨number, hwaiting⟩, rfl⟩
    · exact step_of_outcome hq hs rfl ho (by rw [Send.isOpen, hready]) rfl (.inr ⟨_, rfl⟩)
    · exact step_of_outcome hq hs rfl ho (by rw [Send.isOpen, hwaiting]) rfl (.inr ⟨_, rfl⟩)
  | cancels hs ha hopen => exact step_of_trail hq hs rfl ha (hasEnded_of_isOpen hopen) fun _ => rfl

/-- Whatever happens, the request has the answer that the endings of its sends decide. -/
theorem Course.reckons (h : n₀.Course i ends n) (hq : n₀.requests[i]? = some (.ofPlan (.ok p))) :
    ∃ q, n.requests[i]? = some q ∧ q.Reckons p ends := by
  induction h with
  | start => exact ⟨_, hq, Request.reckons_ofPlan p⟩
  | step _ hn' ih =>
    obtain ⟨q, hq, hreckons⟩ := ih
    obtain ⟨q', hq', hstep⟩ := step_of_request hq hreckons.settled hn'
    exact ⟨q', hq', hreckons.step hstep⟩
  | changes _ _ _ _ ih => exact ih

end Network

end BucketCluster
