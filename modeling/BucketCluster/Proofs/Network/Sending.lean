import BucketCluster.Proofs.Executor.Replies
import BucketCluster.Proofs.Network.Jobs

/-!
# Sends, whatever they carry

What the steps of a network do to its nodes when nothing is known of the commands: a
request changes only with its own sends (`acts_of_step`), in every step executors go on
from where they were (`get?_of_step`), and links stay as they are (`links_of_step`).
-/

namespace BucketCluster.Network

variable {n n' : Network} {ev : Event} {i j : Nat} {r : Request} {s : Send}

/-! ## Steps that can be taken -/

theorem step_handed {number : Nat} {sending : Sending} {m : Network} (hr : n.requests[i]? = some r)
    (hs : r.sends[j]? = some s) (ho : n.dispatch s.node s.command = .ok (number, m))
    (hsending : s.sending = .ready ∧ sending = .waiting number ∨
      s.sending = .stray ∧ sending = .abandoned) :
    n.step (.send i j) = some (m.setRequest i (r.setSending j s sending)) := by
  rcases hsending with ⟨hready, rfl⟩ | ⟨hstray, rfl⟩
  · simp only [step, sendStep, hr, hs, hready, ho, Option.bind_eq_bind, Option.bind_some]
  · simp only [step, sendStep, hr, hs, hstray, ho, Option.bind_eq_bind, Option.bind_some]

theorem step_lost {o : SendOutcome} {r' : Request} (hr : n.requests[i]? = some r)
    (hs : r.sends[j]? = some s) (ho : n.dispatch s.node s.command = .error o)
    (hr' : s.sending = .ready ∧ r' = r.record j s o ∨
      s.sending = .stray ∧ r' = r.setSending j s .abandoned) :
    n.step (.send i j) = some (n.setRequest i r') := by
  rcases hr' with ⟨hready, rfl⟩ | ⟨hstray, rfl⟩
  · simp only [step, sendStep, hr, hs, hready, ho, Option.bind_eq_bind, Option.bind_some]
  · simp only [step, sendStep, hr, hs, hstray, ho, Option.bind_eq_bind, Option.bind_some]

theorem step_receive {number : Nat} {x : Processor} {reply : Reply} (hr : n.requests[i]? = some r)
    (hs : r.sends[j]? = some s) (hwaiting : s.sending = .waiting number)
    (hx : n.processors.get? s.node.name = some x) (hreply : x.reply? number = some reply) :
    n.step (.receive i j) = some (n.setRequest i (r.record j s (n.outcomeOf s.node reply))) := by
  simp only [step, receiveStep, hr, hs, hwaiting, hx, hreply, Option.bind_eq_bind, Option.bind_some]

theorem step_fail {report : HttpReport} {e : LinkError} {left : Sending}
    (hr : n.requests[i]? = some r) (hs : r.sends[j]? = some s)
    (he : n.linkFailure? s.node report = some e)
    (hleft : s.sending = .ready ∧ left = .stray ∨
      (∃ number, s.sending = .waiting number) ∧ left = .abandoned) :
    n.step (.fail i j report) =
      some (n.setRequest i (r.record j s (.failed (.communication e)) left)) := by
  rcases hleft with ⟨hready, rfl⟩ | ⟨⟨number, hwaiting⟩, rfl⟩
  · simp only [step, failStep, hr, hs, he, hready, Option.bind_eq_bind, Option.bind_some]
  · simp only [step, failStep, hr, hs, he, hwaiting, Option.bind_eq_bind, Option.bind_some]

theorem step_cancel (hr : n.requests[i]? = some r) (hs : r.sends[j]? = some s)
    (ha : r.answer.isSome = true) (hopen : s.isOpen = true) :
    n.step (.cancel i j) = some (n.setRequest i (r.setSending j s .abandoned)) := by
  simp only [step, cancelStep, hr, hs, ha, hopen, Bool.and_self, if_true, Option.bind_eq_bind,
    Option.bind_some]

theorem step_node {name : String} {e : Executor.Event Command} {x y : Processor}
    (hx : n.processors.get? name = some x) (hy : x.step Store.handler e = some y) :
    n.step (.node name e) = some (n.setProcessor name y) := by
  simp only [step, hx, hy, Option.bind_eq_bind, Option.bind_some]

/-! ## What a step does to a request -/

/-- The send that an event is about: its request, and its place there. -/
def Event.place? : Event → Option (Nat × Nat)
  | .node .. => none
  | .request _ => none
  | .send i j => some (i, j)
  | .receive i j => some (i, j)
  | .fail i j _ => some (i, j)
  | .cancel i j => some (i, j)

/-- The step `ev` from `n` to the network `n'` makes of request `i`, which is `r`, the
request given. -/
inductive Acts (n : Network) (i : Nat) (r : Request) : Event → Network → Request → Prop where
  /-- Only its own sends take a request further. -/
  | rests {ev : Event} {n' : Network} (hev : ∀ j, ev.place? ≠ some (i, j)) : Acts n i r ev n' r
  /-- A job is waited for, unless the send has been given up on the way. -/
  | hands {j : Nat} {s : Send} {x : Processor} {c : Command} {sending : Sending}
      (hs : r.sends[j]? = some s)
      (hsending : s.sending = .ready ∧ sending = .waiting x.submissions.length ∨
        s.sending = .stray ∧ sending = .abandoned)
      (hx : n.processors.get? s.node.name = some x)
      (hc : Command.schema.Fits s.command → c = s.command)
      (ho : n.dispatch s.node s.command =
        .ok (x.submissions.length, n.setProcessor s.node.name (x.submit c))) :
      Acts n i r (.send i j)
        ((n.setProcessor s.node.name (x.submit c)).setRequest i (r.setSending j s sending))
        (r.setSending j s sending)
  | fails {j : Nat} {s : Send} {o : SendOutcome} (hs : r.sends[j]? = some s)
      (hready : s.sending = .ready) (ho : n.dispatch s.node s.command = .error o) :
      Acts n i r (.send i j) (n.setRequest i (r.record j s o)) (r.record j s o)
  /-- A command that nobody waits for does not get to its node. -/
  | loses {j : Nat} {s : Send} {o : SendOutcome} (hs : r.sends[j]? = some s)
      (hstray : s.sending = .stray) (ho : n.dispatch s.node s.command = .error o) :
      Acts n i r (.send i j) (n.setRequest i (r.setSending j s .abandoned))
        (r.setSending j s .abandoned)
  | receives {j number : Nat} {s : Send} {x : Processor} {reply : Reply} (hs : r.sends[j]? = some s)
      (hwaiting : s.sending = .waiting number) (hx : n.processors.get? s.node.name = some x)
      (hreply : x.reply? number = some reply) :
      Acts n i r (.receive i j) (n.setRequest i (r.record j s (n.outcomeOf s.node reply)))
        (r.record j s (n.outcomeOf s.node reply))
  | breaks {j : Nat} {report : HttpReport} {s : Send} {e : LinkError} {left : Sending}
      (hs : r.sends[j]? = some s) (he : n.linkFailure? s.node report = some e)
      (hleft : s.sending = .ready ∧ left = .stray ∨
        (∃ number, s.sending = .waiting number) ∧ left = .abandoned) :
      Acts n i r (.fail i j report)
        (n.setRequest i (r.record j s (.failed (.communication e)) left))
        (r.record j s (.failed (.communication e)) left)
  | cancels {j : Nat} {s : Send} (hs : r.sends[j]? = some s) (ha : r.answer.isSome = true)
      (hopen : s.isOpen = true) :
      Acts n i r (.cancel i j) (n.setRequest i (r.setSending j s .abandoned))
        (r.setSending j s .abandoned)

/-- A step changes the request that it is about, and no other. -/
theorem requests_of_step {k : Nat} (h : n.step ev = some n') (hplace : ev.place? = some (k, j)) :
    ∃ q, n'.requests = n.requests.set k q := by
  cases ev with
  | node name e => cases hplace
  | request plan => cases hplace
  | send k' j' =>
    cases hplace
    obtain ⟨q, s, -, -, hsend⟩ := sent_of_step h
    rcases hsend with ⟨o, q', -, -, rfl⟩ | ⟨x, c, sending, -, -, -, -, rfl⟩
    · exact ⟨_, rfl⟩
    · exact ⟨_, rfl⟩
  | receive k' j' =>
    cases hplace
    obtain ⟨q, s, number, x, reply, -, -, -, -, -, rfl⟩ := receive_of_step h
    exact ⟨_, rfl⟩
  | fail k' j' report =>
    cases hplace
    obtain ⟨q, s, e, left, -, -, -, -, rfl⟩ := fail_of_step h
    exact ⟨_, rfl⟩
  | cancel k' j' =>
    cases hplace
    obtain ⟨q, s, -, -, -, -, rfl⟩ := cancel_of_step h
    exact ⟨_, rfl⟩

/-- What a step does to the request that it is about. -/
theorem acts_of_place (hr : n.requests[i]? = some r) (h : n.step ev = some n')
    (hplace : ev.place? = some (i, j)) : ∃ r', n'.requests[i]? = some r' ∧ n.Acts i r ev n' r' := by
  have hlt := (List.getElem?_eq_some_iff.1 hr).1
  cases ev with
  | node name e => cases hplace
  | request plan => cases hplace
  | send i' j' =>
    cases hplace
    obtain ⟨r', s, hr', hs, hsend⟩ := sent_of_step h
    cases hr.symm.trans hr'
    rcases hsend with ⟨o, r', ho, hr', rfl⟩ | ⟨x, c, sending, hx, hc, ho, hsending, rfl⟩
    · rcases hr' with ⟨hready, rfl⟩ | ⟨hstray, rfl⟩
      · exact ⟨_, List.getElem?_set_self hlt, .fails hs hready ho⟩
      · exact ⟨_, List.getElem?_set_self hlt, .loses hs hstray ho⟩
    · exact ⟨_, List.getElem?_set_self hlt, .hands hs hsending hx hc ho⟩
  | receive i' j' =>
    cases hplace
    obtain ⟨r', s, number, x, reply, hr', hs, hwaiting, hx, hreply, rfl⟩ := receive_of_step h
    cases hr.symm.trans hr'
    exact ⟨_, List.getElem?_set_self hlt, .receives hs hwaiting hx hreply⟩
  | fail i' j' report =>
    cases hplace
    obtain ⟨r', s, e, left, hr', hs, he, hleft, rfl⟩ := fail_of_step h
    cases hr.symm.trans hr'
    exact ⟨_, List.getElem?_set_self hlt, .breaks hs he hleft⟩
  | cancel i' j' =>
    cases hplace
    obtain ⟨r', s, hr', hs, ha, hopen, rfl⟩ := cancel_of_step h
    cases hr.symm.trans hr'
    exact ⟨_, List.getElem?_set_self hlt, .cancels hs ha hopen⟩

/-- A step that is about no send brings nothing but new requests. -/
theorem getElem?_of_place_eq_none (hr : n.requests[i]? = some r) (h : n.step ev = some n')
    (hplace : ev.place? = none) : n'.requests[i]? = some r := by
  cases ev with
  | node name e =>
    obtain ⟨x, y, -, -, rfl⟩ := node_of_step h
    exact hr
  | request plan =>
    cases h
    exact (List.getElem?_append_left (List.getElem?_eq_some_iff.1 hr).1).trans hr
  | send => cases hplace
  | receive => cases hplace
  | fail => cases hplace
  | cancel => cases hplace

/-- **The list of what a step can do to a request is complete.** -/
theorem acts_of_step (hr : n.requests[i]? = some r) (h : n.step ev = some n') :
    ∃ r', n'.requests[i]? = some r' ∧ n.Acts i r ev n' r' := by
  cases hplace : ev.place? with
  | none =>
    refine ⟨r, getElem?_of_place_eq_none hr h hplace, .rests fun j hj => ?_⟩
    cases hplace.symm.trans hj
  | some place =>
    obtain ⟨k, j⟩ := place
    by_cases hk : k = i
    · subst hk
      exact acts_of_place hr h hplace
    · obtain ⟨q, hq⟩ := requests_of_step h hplace
      refine ⟨r, ?_, .rests fun j' hj' => ?_⟩
      · rw [hq, List.getElem?_set_ne hk]
        exact hr
      · cases hplace.symm.trans hj'
        exact hk rfl

/-! ## Executors that go on -/

/-- The one executor goes on to the other: its replies can still be read, and its jobs are
still there. -/
structure GoesOn (x y : Processor) : Prop where
  replies : ∀ number reply, x.reply? number = some reply → y.reply? number = some reply
  jobs : x.jobs <+: y.jobs

theorem GoesOn.refl (x : Processor) : GoesOn x x := ⟨fun _ _ => id, List.prefix_rfl⟩

theorem GoesOn.job {x y : Processor} (h : GoesOn x y) {number : Nat} {c : Command}
    (hc : x.jobs[number]? = some c) : y.jobs[number]? = some c := by
  obtain ⟨hlt, rfl⟩ := List.getElem?_eq_some_iff.1 hc
  exact List.prefix_iff_getElem?.1 h.jobs number hlt

theorem goesOn_of_step {x y : Processor} {e : Executor.Event Command}
    (h : x.step Store.handler e = some y) : GoesOn x y :=
  ⟨fun _ _ => Executor.reply?_of_step h, Executor.jobs_prefix h⟩

theorem goesOn_setProcessor {name name' : String} {x y : Processor}
    (hx : n.processors.get? name = some x) (hxy : GoesOn x y) {z : Processor}
    (hz : n.processors.get? name' = some z) :
    ∃ z', (n.setProcessor name y).processors.get? name' = some z' ∧ GoesOn z z' := by
  rw [get?_setProcessor]
  split
  · next hname =>
    subst hname
    cases hx.symm.trans hz
    exact ⟨y, rfl, hxy⟩
  · exact ⟨z, hz, .refl z⟩

/-- **Replies stay readable, and jobs are not forgotten.** -/
theorem get?_of_step (h : n.step ev = some n') {name : String} {x : Processor}
    (hx : n.processors.get? name = some x) :
    ∃ y, n'.processors.get? name = some y ∧ GoesOn x y := by
  cases ev with
  | node name' e =>
    obtain ⟨z, z', hz, hz', rfl⟩ := node_of_step h
    exact goesOn_setProcessor hz (goesOn_of_step hz') hx
  | request plan =>
    cases h
    exact ⟨x, hx, .refl x⟩
  | receive i j =>
    obtain ⟨r, s, number, z, reply, -, -, -, -, -, rfl⟩ := receive_of_step h
    exact ⟨x, hx, .refl x⟩
  | fail i j report =>
    obtain ⟨r, s, e, left, -, -, -, -, rfl⟩ := fail_of_step h
    exact ⟨x, hx, .refl x⟩
  | cancel i j =>
    obtain ⟨r, s, -, -, -, -, rfl⟩ := cancel_of_step h
    exact ⟨x, hx, .refl x⟩
  | send i j =>
    obtain ⟨r, s, -, -, hsend⟩ := sent_of_step h
    rcases hsend with ⟨o, r', -, -, rfl⟩ | ⟨z, c, sending, hz, -, -, -, rfl⟩
    · exact ⟨x, hx, .refl x⟩
    · exact goesOn_setProcessor hz (goesOn_of_step (e := .submit c) rfl) hx

/-! ## Links -/

/-- No step changes a link. -/
theorem links_of_step (h : n.step ev = some n') :
    n'.attached = n.attached ∧ n'.scripts = n.scripts := by
  cases ev with
  | node name e =>
    obtain ⟨x, y, -, -, rfl⟩ := node_of_step h
    exact ⟨rfl, rfl⟩
  | request plan =>
    cases h
    exact ⟨rfl, rfl⟩
  | send i j =>
    obtain ⟨r, s, -, -, hsend⟩ := sent_of_step h
    rcases hsend with ⟨o, r', -, -, rfl⟩ | ⟨x, c, sending, -, -, -, -, rfl⟩
    · exact ⟨rfl, rfl⟩
    · exact ⟨rfl, rfl⟩
  | receive i j =>
    obtain ⟨r, s, number, x, reply, -, -, -, -, -, rfl⟩ := receive_of_step h
    exact ⟨rfl, rfl⟩
  | fail i j report =>
    obtain ⟨r, s, e, left, -, -, -, -, rfl⟩ := fail_of_step h
    exact ⟨rfl, rfl⟩
  | cancel i j =>
    obtain ⟨r, s, -, -, -, -, rfl⟩ := cancel_of_step h
    exact ⟨rfl, rfl⟩

theorem Connected.step {names : List String} (h : n.Connected names) (hn' : n.step ev = some n') :
    n'.Connected names := by
  obtain ⟨hattached, hscripts⟩ := links_of_step hn'
  refine ⟨fun name hname => ?_, ?_, ?_⟩
  · obtain ⟨x, hx⟩ := h.known name hname
    obtain ⟨y, hy, -⟩ := get?_of_step hn' hx
    exact ⟨y, hy⟩
  · rw [hattached]
    exact h.attached
  · rw [hscripts]
    exact h.unscripted

end BucketCluster.Network
