import BucketCluster.Proofs.Coordination.Session
import BucketCluster.Proofs.Network.Sending

/-!
# Where a node is makes no difference

A command gets to a node directly if the node is the coordinator's own process, and
over a link otherwise.  `locality_transparent` says that, as long as the link works,
nobody can tell: whatever else goes on in the network and in whatever order, the nodes
go through the same states and the same answers are given.

Two networks are `Alike` if they differ only in which way some sends go.  Every step
takes alike networks to alike ones (`Alike.step`), because commands and replies
arrive at the other end of a link as they were.  This asks for messages that fit in a
machine's memory (`Schema.Fits`), replies included (`Brief`).
-/

namespace BucketCluster

/-! ## Sends, requests and networks that are alike -/

/-- The same command to the same node, at the same stage; the ways may differ if the node is
one of those named. -/
structure Send.Alike (names : List String) (s s' : Send) : Prop where
  name : s.node.name = s'.node.name
  command : s.command = s'.command
  sending : s.sending = s'.sending
  way : s.node.inProcess = s'.node.inProcess ∨ s.node.name ∈ names ∧ Command.schema.Fits s.command

/-- Nothing but the ways of sends differs. -/
structure Request.Alike (names : List String) (r r' : Request) : Prop where
  sends : List.Forall₂ (Send.Alike names) r.sends r'.sends
  merge : r.merge = r'.merge
  outcomes : r.outcomes = r'.outcomes
  answer : r.answer = r'.answer

/-- Nothing but the ways of sends differs. -/
structure Network.Alike (names : List String) (n n' : Network) : Prop where
  same : n' = { n with requests := n'.requests }
  requests : List.Forall₂ (Request.Alike names) n.requests n'.requests

/-- The named nodes can be reached within the process. -/
structure Network.Linked (names : List String) (n : Network) : Prop
    extends Connected names n where
  inProcess : ∀ name ∈ names, n.attached.get? name = some .loopback

/-- The replies of the named nodes fit into memory. -/
def Network.Brief (names : List String) (n : Network) : Prop :=
  ∀ name ∈ names, ∀ x, n.processors.get? name = some x →
    ∀ number reply, x.reply? number = some reply → Reply.schema.Fits reply

variable {names : List String}

theorem Send.Alike.refl (s : Send) : s.Alike names s := ⟨rfl, rfl, rfl, .inl rfl⟩

theorem Send.Alike.symm {s s' : Send} (h : s.Alike names s') : s'.Alike names s :=
  ⟨h.name.symm, h.command.symm, h.sending.symm,
    h.way.imp Eq.symm fun hw => by rwa [← h.name, ← h.command]⟩

theorem Send.Alike.setSending {s s' : Send} (h : s.Alike names s') (sending : Sending) :
    Send.Alike names { s with sending := sending } { s' with sending := sending } :=
  ⟨h.name, h.command, rfl, h.way⟩

namespace Request

variable {r r' : Request} {s s' : Send}

theorem Alike.refl (r : Request) : r.Alike names r :=
  ⟨List.forall₂_same.2 fun s _ => .refl s, rfl, rfl, rfl⟩

theorem Alike.symm (h : r.Alike names r') : r'.Alike names r :=
  ⟨h.sends.flip.imp fun _ _ hs => Send.Alike.symm hs, h.merge.symm, h.outcomes.symm, h.answer.symm⟩

theorem Alike.setSending (h : r.Alike names r') (hs : s.Alike names s') (j : Nat)
    (sending : Sending) : (r.setSending j s sending).Alike names (r'.setSending j s' sending) :=
  ⟨forall₂_set h.sends (hs.setSending sending) j, h.merge, h.outcomes, h.answer⟩

theorem Alike.conclude (h : r.Alike names r') : r.conclude.Alike names r'.conclude := by
  unfold Request.conclude
  rw [← h.outcomes, ← h.sends.length_eq, ← h.merge]
  split
  · exact ⟨h.sends, rfl, rfl, rfl⟩
  · split
    · exact ⟨h.sends, rfl, rfl, rfl⟩
    · exact h

theorem Alike.record (h : r.Alike names r') (hs : s.Alike names s') (j : Nat) (o : SendOutcome)
    (left : Sending) : (r.record j s o left).Alike names (r'.record j s' o left) := by
  have hset := h.setSending hs j left
  by_cases ha : r.answer.isSome = true
  · rw [record_of_isSome ha, record_of_isSome (h.answer ▸ ha)]
    exact hset
  · have hnone : r.answer = none := Option.not_isSome_iff_eq_none.1 ha
    rw [record_of_open hnone, record_of_open (h.answer ▸ hnone)]
    exact Alike.conclude ⟨hset.sends, hset.merge, congrArg (· ++ [o]) h.outcomes, hset.answer⟩

end Request

namespace Network

variable {n n' m m' : Network} {ev : Event} {s s' : Send} {i j : Nat}

theorem Alike.symm (h : n.Alike names n') : n'.Alike names n :=
  ⟨by rw [h.same], h.requests.flip.imp fun _ _ hr => Request.Alike.symm hr⟩

theorem Alike.processors (h : n.Alike names n') : n'.processors = n.processors := by rw [h.same]

theorem Alike.attached (h : n.Alike names n') : n'.attached = n.attached := by rw [h.same]

/-! ## Links -/

/-- No command is too long for a link within the process. -/
theorem Linked.takes (h : n.Linked names) (c : Command) : n.Takes names c := by
  intro name hname refusal hlink
  cases (h.inProcess name hname).symm.trans hlink

theorem Linked.dispatch (h : n.Linked names) {node : Node} (hn : node.name ∈ names) {c : Command}
    (hc : Command.schema.Fits c) {x : Processor} (hx : n.processors.get? node.name = some x) :
    n.dispatch node c = .ok (x.submissions.length, n.setProcessor node.name (x.submit c)) :=
  h.toConnected.dispatch hn hc (h.takes c) hx

/-- No client gives up what is passed on within a process. -/
theorem Linked.linkFailure?_eq_none (h : n.Linked names) {node : Node} (hn : node.name ∈ names)
    (report : HttpReport) : n.linkFailure? node report = none := by
  unfold linkFailure?
  rw [h.inProcess _ hn]
  cases node.inProcess <;> rfl

theorem Linked.step (h : n.Linked names) (hn' : n.step ev = some m) : m.Linked names := by
  refine ⟨h.toConnected.step hn', ?_⟩
  rw [(links_of_step hn').1]
  exact h.inProcess

/-! ## Dispatching -/

/-- The way to a node that can be reached does not matter. -/
theorem dispatch_of_alike (hs : s.Alike names s') (hl : n.Linked names) :
    n.dispatch s'.node s'.command = n.dispatch s.node s.command := by
  rcases hs.way with hway | ⟨hname, hfits⟩
  · unfold dispatch transmit
    rw [← hs.name, ← hs.command, ← hway]
  · obtain ⟨x, hx⟩ := hl.known _ hname
    rw [hl.dispatch hname hfits hx,
      hl.dispatch (hs.name ▸ hname) (hs.command ▸ hfits) (hs.name ▸ hx), hs.name, hs.command]

/-- What becomes of a send does not depend on the requests. -/
theorem dispatch_withRequests (n : Network) (rs : List Request) (node : Node) (c : Command) :
    ({ n with requests := rs } : Network).dispatch node c =
      (n.dispatch node c).map fun d => (d.1, { d.2 with requests := rs }) := by
  have hsubmit (c : Command) (absent : String) :
      ({ n with requests := rs } : Network).submit node.name c absent =
        (n.submit node.name c absent).map fun d => (d.1, { d.2 with requests := rs }) := by
    unfold submit
    cases n.processors.get? node.name <;> rfl
  unfold dispatch
  split
  · exact hsubmit c _
  · unfold transmit
    simp only
    cases n.scripts.get? node.name with
    | some script => rfl
    | none =>
      simp only
      split
      · cases Command.schema.decodeFront (Command.schema.encode c) with
        | ok c => exact hsubmit c _
        | error fault => rfl
      · cases Service.accept (Command.schema.encode c) with
        | ok c => exact hsubmit c _
        | error response => rfl
      · rfl

/-- The outcome is the same whichever way the reply comes back. -/
theorem outcomeOf_of_alike (h : n.Alike names n') (hs : s.Alike names s') {reply : Reply}
    (hreply : s.node.name ∈ names → Reply.schema.Fits reply) :
    n'.outcomeOf s'.node reply = n.outcomeOf s.node reply := by
  rcases hs.way with hway | ⟨hname, -⟩
  · unfold outcomeOf
    rw [← hway, ← hs.name, h.attached]
  · rw [outcomeOf_eq n (hreply hname), outcomeOf_eq n' (hreply hname)]

/-- Nor does it matter to a client that gives up, since there is none on the way to a named node. -/
theorem linkFailure?_of_alike (h : n.Alike names n') (hl : n.Linked names) (hs : s.Alike names s')
    (report : HttpReport) : n'.linkFailure? s'.node report = n.linkFailure? s.node report := by
  have hsame : n'.linkFailure? s'.node report = n.linkFailure? s'.node report := by
    unfold linkFailure?
    rw [h.attached]
  rw [hsame]
  rcases hs.way with hway | ⟨hname, -⟩
  · unfold linkFailure?
    rw [← hway, ← hs.name]
  · rw [hl.linkFailure?_eq_none hname, hl.linkFailure?_eq_none (hs.name ▸ hname)]

/-! ## Steps -/

/-- Replies that fit in the end have always done so. -/
theorem Brief.of_step (h : n.step ev = some m) (hm : m.Brief names) : n.Brief names := by
  intro name hname x hx number reply hreply
  obtain ⟨y, hy, hgoes⟩ := get?_of_step h hx
  exact hm name hname y hy number reply (hgoes.replies number reply hreply)

theorem Alike.setRequest (h : n.Alike names n') {r r' : Request} (hr : r.Alike names r') (i : Nat) :
    (n.setRequest i r).Alike names (n'.setRequest i r') := by
  refine ⟨?_, forall₂_set h.requests hr i⟩
  unfold Network.setRequest
  rw [h.same]

/-- What becomes of a send that goes out is the same in both networks. -/
theorem Alike.dispatch_eq (h : n.Alike names n') (hl : n.Linked names) (hs : s.Alike names s') :
    n'.dispatch s'.node s'.command =
      (n.dispatch s.node s.command).map fun d => (d.1, { d.2 with requests := n'.requests }) := by
  rw [← dispatch_of_alike hs hl, ← dispatch_withRequests, ← h.same]

theorem Alike.step_send (h : n.Alike names n') (hl : n.Linked names)
    (hstep : n.step (.send i j) = some m) :
    ∃ m', n'.step (.send i j) = some m' ∧ m.Alike names m' := by
  obtain ⟨r, s, hr, hs, hsend⟩ := sent_of_step hstep
  obtain ⟨r', hr', hrr'⟩ := forall₂_getElem? h.requests hr
  obtain ⟨s', hs', hss'⟩ := forall₂_getElem? hrr'.sends hs
  have hdispatch := h.dispatch_eq hl hss'
  rcases hsend with ⟨o, q, ho, hq, rfl⟩ | ⟨x, c, sending, hx, -, ho, hsending, rfl⟩
  · rw [ho] at hdispatch
    rcases hq with ⟨hready, rfl⟩ | ⟨hstray, rfl⟩
    · exact ⟨_, step_lost hr' hs' hdispatch (.inl ⟨hss'.sending ▸ hready, rfl⟩),
        h.setRequest (hrr'.record hss' j o .ended) i⟩
    · exact ⟨_, step_lost hr' hs' hdispatch (.inr ⟨hss'.sending ▸ hstray, rfl⟩),
        h.setRequest (hrr'.setSending hss' j .abandoned) i⟩
  · rw [ho] at hdispatch
    have halike : (n.setProcessor s.node.name (x.submit c)).Alike names
        { n.setProcessor s.node.name (x.submit c) with requests := n'.requests } :=
          ⟨rfl, h.requests⟩
    exact ⟨_, step_handed hr' hs' hdispatch (hss'.sending ▸ hsending),
      halike.setRequest (hrr'.setSending hss' j sending) i⟩

/-- **What happens in one network can happen in the other.** -/
theorem Alike.step (h : n.Alike names n') (hl : n.Linked names) (hstep : n.step ev = some m)
    (hm : m.Brief names) : ∃ m', n'.step ev = some m' ∧ m.Alike names m' := by
  have hn := Brief.of_step hstep hm
  cases ev with
  | node name e =>
    obtain ⟨x, y, hx, hy, rfl⟩ := node_of_step hstep
    refine ⟨_, step_node (by rw [h.processors]; exact hx) hy, ?_, h.requests⟩
    rw [h.same]
    rfl
  | request plan =>
    cases hstep
    refine ⟨_, rfl, ?_, List.rel_append h.requests (.cons (.refl _) .nil)⟩
    rw [h.same]
  | send i j => exact h.step_send hl hstep
  | receive i j =>
    obtain ⟨r, s, number, x, reply, hr, hs, hwaiting, hx, hreply, rfl⟩ := receive_of_step hstep
    obtain ⟨r', hr', hrr'⟩ := forall₂_getElem? h.requests hr
    obtain ⟨s', hs', hss'⟩ := forall₂_getElem? hrr'.sends hs
    have hx' : n'.processors.get? s'.node.name = some x := by rw [h.processors, ← hss'.name, hx]
    refine ⟨_, step_receive hr' hs' (hss'.sending ▸ hwaiting) hx' hreply, ?_⟩
    rw [outcomeOf_of_alike h hss' fun hname => hn _ hname x hx number reply hreply]
    exact h.setRequest (hrr'.record hss' j _ .ended) i
  | fail i j report =>
    obtain ⟨r, s, e, left, hr, hs, he, hleft, rfl⟩ := fail_of_step hstep
    obtain ⟨r', hr', hrr'⟩ := forall₂_getElem? h.requests hr
    obtain ⟨s', hs', hss'⟩ := forall₂_getElem? hrr'.sends hs
    rw [← linkFailure?_of_alike h hl hss'] at he
    exact ⟨_, step_fail hr' hs' he (hss'.sending ▸ hleft),
      h.setRequest (hrr'.record hss' j _ left) i⟩
  | cancel i j =>
    obtain ⟨r, s, hr, hs, ha, hopen, rfl⟩ := cancel_of_step hstep
    obtain ⟨r', hr', hrr'⟩ := forall₂_getElem? h.requests hr
    obtain ⟨s', hs', hss'⟩ := forall₂_getElem? hrr'.sends hs
    have hopen' : s'.isOpen = true := by rwa [Send.isOpen, ← hss'.sending]
    exact ⟨_, step_cancel hr' hs' (hrr'.answer ▸ ha) hopen',
      h.setRequest (hrr'.setSending hss' j .abandoned) i⟩

/-! ## Runs -/

theorem Brief.of_after {evs : List Event} (h : n.after evs = some m) (hm : m.Brief names) :
    n.Brief names := by
  induction evs generalizing n with
  | nil =>
    cases h
    exact hm
  | cons ev evs ih =>
    obtain ⟨k, hk, h⟩ := Option.bind_eq_some_iff.1 h
    exact (ih h).of_step hk

/-- A run of one network is a run of the other. -/
theorem Alike.after (h : n.Alike names n') (hl : n.Linked names) {evs : List Event}
    (hrun : n.after evs = some m) (hm : m.Brief names) :
    ∃ m', n'.after evs = some m' ∧ m.Alike names m' := by
  induction evs generalizing n n' with
  | nil =>
    cases hrun
    exact ⟨n', rfl, h⟩
  | cons ev evs ih =>
    obtain ⟨k, hk, hrun⟩ := Option.bind_eq_some_iff.1 hrun
    obtain ⟨k', hk', halike⟩ := h.step hl hk (Brief.of_after hrun hm)
    obtain ⟨m', hm', hmm'⟩ := ih halike (hl.step hk) hrun
    exact ⟨m', by rw [Network.after, hk']; exact hm', hmm'⟩

theorem Alike.answers (h : n.Alike names n') :
    n'.requests.map (·.answer) = n.requests.map (·.answer) := by
  have hall : ∀ {rs rs' : List Request}, List.Forall₂ (Request.Alike names) rs rs' →
      rs'.map (·.answer) = rs.map (·.answer) := by
    intro rs rs' hrs
    induction hrs with
    | nil => rfl
    | cons hr _ ih => rw [List.map_cons, List.map_cons, hr.answer, ih]
  exact hall h.requests

/-! ## One command for one node -/

/-- The request for one node has not been sent, is at the node, or has been answered with
what the node has replied. -/
inductive Asks (node : Node) (c : Command) (x : Processor) : Request → Prop where
  | ready : Asks node c x ⟨[⟨node, c, .ready⟩], .only, [], none⟩
  | waiting (number : Nat) : Asks node c x ⟨[⟨node, c, .waiting number⟩], .only, [], none⟩
  | answered (number : Nat) (reply : Reply) (hreply : x.reply? number = some reply) :
      Asks node c x ⟨[⟨node, c, .ended⟩], .only, [.ofReply reply],
        some (reply.mapError .processing)⟩

/-- The request in place `i` is one for the node. -/
def Asked (i : Nat) (node : Node) (c : Command) (n : Network) : Prop :=
  ∃ r x, n.requests[i]? = some r ∧ n.processors.get? node.name = some x ∧ Asks node c x r

variable {node : Node} {c : Command} {x y : Processor}

/-- One outcome decides. -/
theorem record_direct (s : Send) (o : SendOutcome) :
    (⟨[s], .only, [], none⟩ : Request).record 0 s o =
      ⟨[{ s with sending := .ended }], .only, [o], some o.result⟩ := by
  cases o <;> rfl

theorem result_ofReply (reply : Reply) :
    (SendOutcome.ofReply reply).result = reply.mapError .processing := by
  cases reply <;> rfl

theorem Asks.keep {r : Request} (h : Asks node c x r) (hxy : GoesOn x y) : Asks node c y r := by
  cases h with
  | ready => exact .ready
  | waiting number => exact .waiting number
  | answered number reply hreply => exact .answered number reply (hxy.replies number reply hreply)

theorem step_direct (n : Network) (node : Node) (c : Command) :
    n.step (.request (.ok (.direct node c))) =
    some { n with requests := n.requests ++ [⟨[⟨node, c, .ready⟩], .only, [], none⟩] } := rfl

theorem Asks.place {r : Request} {s : Send} {j : Nat} (h : Asks node c x r)
    (hs : r.sends[j]? = some s) : j = 0 := by
  have hlen : r.sends.length = 1 := by cases h <;> rfl
  have hlt := (List.getElem?_eq_some_iff.1 hs).1
  omega

theorem Asks.node_eq {r : Request} {s : Send} {j : Nat} (h : Asks node c x r)
    (hs : r.sends[j]? = some s) : s.node = node := by
  obtain rfl := h.place hs
  cases h <;> cases hs <;> rfl

theorem Asks.not_stray {r : Request} {s : Send} {j : Nat} (h : Asks node c x r)
    (hs : r.sends[j]? = some s) : s.sending ≠ .stray := by
  obtain rfl := h.place hs
  cases h <;> cases hs <;> exact nofun

/-- Only its own send and its own reply take the request further. -/
theorem Asked.step (hin : node.inProcess = true) (h : n.Asked i node c)
    (hstep : n.step ev = some m) : m.Asked i node c := by
  obtain ⟨r, x, hr, hx, hasks⟩ := h
  obtain ⟨y, hy, hgoes⟩ := get?_of_step hstep hx
  obtain ⟨r', hr', hacts⟩ := acts_of_step hr hstep
  refine ⟨r', y, hr', hy, ?_⟩
  cases hacts with
  | rests hev => exact hasks.keep hgoes
  | fails hs hready ho =>
    obtain rfl := hasks.place hs
    cases hasks with
    | ready =>
      cases hs
      have hdispatch : n.dispatch node c =
          .ok (x.submissions.length, n.setProcessor node.name (x.submit c)) := by
        unfold dispatch submit
        rw [if_pos hin, hx]
      rw [hdispatch] at ho
      cases ho
    | waiting number => cases hs; cases hready
    | answered number reply hreply => cases hs; cases hready
  | @hands j s z c' sending hs hsending hz hc ho =>
    obtain rfl := hasks.place hs
    rcases hsending with ⟨hready, rfl⟩ | ⟨hstray, rfl⟩
    · cases hasks with
      | ready => cases hs; exact .waiting z.submissions.length
      | waiting number => cases hs; cases hready
      | answered number reply hreply => cases hs; cases hready
    · exact absurd hstray (hasks.not_stray hs)
  | loses hs hstray ho => exact absurd hstray (hasks.not_stray hs)
  | @receives j number s z reply hs hwaiting hz hreply =>
    obtain rfl := hasks.place hs
    cases hasks with
    | waiting number' =>
      cases hs
      cases hwaiting
      cases hx.symm.trans hz
      rw [record_direct, show n.outcomeOf node reply = .ofReply reply from if_pos hin,
        result_ofReply]
      exact .answered number reply (hgoes.replies number reply hreply)
    | ready => cases hs; cases hwaiting
    | answered number' reply' hreply' => cases hs; cases hwaiting
  | @breaks j report s e left hs he hleft =>
    have hnone : n.linkFailure? s.node report = none := by
      unfold linkFailure?
      rw [hasks.node_eq hs, hin]
    cases hnone.symm.trans he
  | cancels hs ha hopen =>
    obtain rfl := hasks.place hs
    cases hasks with
    | ready => cases ha
    | waiting number => cases ha
    | answered number reply hreply => cases hs; cases hopen

theorem Asked.after (hin : node.inProcess = true) (h : n.Asked i node c) {evs : List Event}
    (hrun : n.after evs = some m) : m.Asked i node c := by
  induction evs generalizing n with
  | nil =>
    cases hrun
    exact h
  | cons ev evs ih =>
    obtain ⟨k, hk, hrun⟩ := Option.bind_eq_some_iff.1 hrun
    exact ih (h.step hin hk) hrun

/-- An answer is a reply of the node. -/
theorem Asked.answer? (h : n.Asked i node c) {a : Except ClusterError Answer}
    (ha : n.answer? i = some a) :
    ∃ x number reply, n.processors.get? node.name = some x ∧ x.reply? number = some reply ∧
      a = reply.mapError .processing := by
  obtain ⟨r, x, hr, hx, hasks⟩ := h
  simp only [Network.answer?, hr, Option.bind_eq_bind, Option.bind_some] at ha
  cases hasks with
  | ready => cases ha
  | waiting number => cases ha
  | answered number reply hreply =>
    cases ha
    exact ⟨x, number, reply, hx, hreply, rfl⟩

/-! ## Getting to the answer -/

theorem after_cons (h : n.step ev = some m) (evs : List Event) :
    n.after (ev :: evs) = m.after evs := by
  rw [Network.after, h]
  rfl

theorem after_append (n : Network) (evs evs' : List Event) :
    n.after (evs ++ evs') = (n.after evs).bind (·.after evs') := by
  induction evs generalizing n with
  | nil => rfl
  | cons ev evs ih =>
    rw [List.cons_append]
    simp only [Network.after, Option.bind_eq_bind, Option.bind_assoc, ih]

theorem answer?_setRequest (hi : i < n.requests.length) (q : Request) :
    (n.setRequest i q).answer? i = q.answer := by
  rw [Network.answer?, setRequest, List.getElem?_set_self hi]
  rfl

/-- A run of an executor in its network. -/
theorem after_nodes {name : String} (hx : n.processors.get? name = some x)
    {es : List (Executor.Event Command)} (h : x.after Store.handler es = some y) :
    ∃ m, n.after (es.map (.node name)) = some m ∧ m.requests = n.requests ∧
      m.processors.get? name = some y := by
  induction es generalizing n x with
  | nil =>
    cases h
    exact ⟨n, rfl, rfl, hx⟩
  | cons e es ih =>
    obtain ⟨z, hz, h⟩ := Option.bind_eq_some_iff.1 h
    obtain ⟨m, hm, hreq, hy⟩ :=
      ih (n := n.setProcessor name z) (by rw [get?_setProcessor, if_pos rfl]) h
    refine ⟨m, ?_, hreq, hy⟩
    rw [List.map_cons, Network.after, step_node hx hz]
    exact hm

/-- The steps in which a command gets to a node, is worked on there and answered. -/
def exchange (i : Nat) (node : Node) (c : Command) (es : List (Executor.Event Command)) :
    List Event :=
  .request (.ok (.direct node c)) :: .send i 0 :: (es.map (.node node.name) ++ [.receive i 0])

/-- Once the node has a reply, the request can be answered with it. -/
theorem after_exchange (hl : n.Linked [node.name]) (hc : Command.schema.Fits c)
    (hx : n.processors.get? node.name = some x) {es : List (Executor.Event Command)}
    (hes : (x.submit c).after Store.handler es = some y) {reply : Reply}
    (hreply : y.reply? x.submissions.length = some reply) (hfits : Reply.schema.Fits reply) :
    ∃ m, n.after (exchange n.requests.length node c es) = some m ∧
      m.answer? n.requests.length = some (reply.mapError .processing) ∧
      m.processors.get? node.name = some y := by
  let asked : Network :=
    { n with requests := n.requests ++ [⟨[⟨node, c, .ready⟩], .only, [], none⟩] }
  let waiting : Network := (asked.setProcessor node.name (x.submit c)).setRequest n.requests.length
    ⟨[⟨node, c, .waiting x.submissions.length⟩], .only, [], none⟩
  have hlast : asked.requests[n.requests.length]? = some ⟨[⟨node, c, .ready⟩], .only, [], none⟩ :=
    List.getElem?_concat_length
  have hasked : asked.Linked [node.name] := hl.step (n.step_direct node c)
  have hdispatch := hasked.dispatch (List.mem_singleton_self _) hc hx
  have hsend : asked.step (.send n.requests.length 0) = some waiting := by
    rw [step_handed (j := 0) hlast rfl hdispatch (.inl ⟨rfl, rfl⟩)]
    rfl
  have hlt : n.requests.length < asked.requests.length := (List.getElem?_eq_some_iff.1 hlast).1
  have hget : waiting.processors.get? node.name = some (x.submit c) := by
    simp only [waiting, setRequest, get?_setProcessor, if_pos]
  obtain ⟨m, hm, hreq, hy⟩ := after_nodes hget hes
  have hwaiting : m.requests[n.requests.length]? =
      some ⟨[⟨node, c, .waiting x.submissions.length⟩], .only, [], none⟩ := by
    rw [hreq]
    exact List.getElem?_set_self hlt
  have hreceive := step_receive hwaiting (j := 0) rfl rfl hy hreply
  rw [record_direct, outcomeOf_eq m hfits, result_ofReply] at hreceive
  refine ⟨m.setRequest n.requests.length ⟨[⟨node, c, .ended⟩], .only, [.ofReply reply],
    some (reply.mapError .processing)⟩, ?_, ?_, hy⟩
  · rw [exchange, after_cons (n.step_direct node c), after_cons hsend, after_append, hm,
      Option.bind_some, after_cons hreceive]
    rfl
  · exact answer?_setRequest (List.getElem?_eq_some_iff.1 hwaiting).1 _

/-! ## Both ways -/

/-- The nodes are in the same states, and the same answers have been given. -/
def SameOutcome (n n' : Network) : Prop :=
  n'.processors = n.processors ∧ n'.requests.map (·.answer) = n.requests.map (·.answer)

/-- It makes no difference whether the command is sent to the node as `l`, in-process, or as
`r`, over the link. -/
structure Transparent (n : Network) (l r : Node) (c : Command) : Prop where
  /-- Whatever happens after the one happens after the other. -/
  across : ∀ evs n₁, n.after (.request (.ok (.direct l c)) :: evs) = some n₁ → n₁.Brief [l.name] →
    ∃ n₂, n.after (.request (.ok (.direct r c)) :: evs) = some n₂ ∧ n₁.SameOutcome n₂
  back : ∀ evs n₂, n.after (.request (.ok (.direct r c)) :: evs) = some n₂ → n₂.Brief [l.name] →
    ∃ n₁, n.after (.request (.ok (.direct l c)) :: evs) = some n₁ ∧ n₁.SameOutcome n₂
  /-- An answer is what the node has replied; no failure of it becomes one of the link. -/
  answers : ∀ node ∈ [l, r], ∀ evs m, n.after (.request (.ok (.direct node c)) :: evs) = some m →
    m.Brief [l.name] → ∀ a, m.answer? n.requests.length = some a →
      ∃ x number reply, m.processors.get? l.name = some x ∧ x.reply? number = some reply ∧
        a = reply.mapError .processing
  /-- A node with nothing else to do handles the command on its store. -/
  served : ∀ node ∈ [l, r], ∀ x s, n.processors.get? l.name = some x → Executor.Quiet s x →
    Reply.schema.Fits (s.handle c).1 → ∃ es m,
      n.after (exchange n.requests.length node c es) = some m ∧
      m.answer? n.requests.length = some ((s.handle c).1.mapError .processing) ∧
      m.store? l.name = some (s.handle c).2
  /-- A node that has been shut down says so, whatever it had to do. -/
  refused : ∀ node ∈ [l, r], ∀ x, n.processors.get? l.name = some x → x.mode = .shutdown →
    ∃ m, n.after (exchange n.requests.length node c []) = some m ∧
      m.answer? n.requests.length = some (.error (.processing .shutdown)) ∧
      m.store? l.name = some x.store

variable {l r : Node}

/-- The two networks in which the command has just been asked for are alike. -/
theorem alike_direct (n : Network) (hname : r.name = l.name) (hc : Command.schema.Fits c) :
    Alike [l.name] { n with requests := n.requests ++ [⟨[⟨l, c, .ready⟩], .only, [], none⟩] }
      { n with requests := n.requests ++ [⟨[⟨r, c, .ready⟩], .only, [], none⟩] } := by
  have hsend : Send.Alike [l.name] ⟨l, c, .ready⟩ ⟨r, c, .ready⟩ :=
    ⟨hname.symm, rfl, rfl, .inr ⟨List.mem_singleton_self _, hc⟩⟩
  refine ⟨rfl, List.rel_append (List.forall₂_same.2 fun q _ => .refl q) (.cons ?_ .nil)⟩
  exact ⟨.cons hsend .nil, rfl, rfl, rfl⟩

theorem Alike.sameOutcome {names : List String} (h : n.Alike names n') : n.SameOutcome n' :=
  ⟨h.processors, h.answers⟩

theorem answer?_of_sameOutcome (h : n.SameOutcome n') (i : Nat) : n'.answer? i = n.answer? i := by
  have hmap := congrArg (fun as => (as[i]?).bind id) h.2
  simp only [List.getElem?_map, Option.bind_map] at hmap
  exact hmap

theorem across_link (hl : n.Linked [l.name]) (hname : r.name = l.name) (hc : Command.schema.Fits c)
    {evs : List Event} (h : n.after (.request (.ok (.direct l c)) :: evs) = some m)
    (hm : m.Brief [l.name]) :
    ∃ m', n.after (.request (.ok (.direct r c)) :: evs) = some m' ∧ m.SameOutcome m' := by
  rw [after_cons (n.step_direct l c)] at h
  rw [after_cons (n.step_direct r c)]
  have hl' : Linked [l.name]
      { n with requests := n.requests ++ [⟨[⟨l, c, .ready⟩], .only, [], none⟩] } :=
    hl.step (n.step_direct l c)
  obtain ⟨m', hm', halike⟩ := (n.alike_direct hname hc).after hl' h hm
  exact ⟨m', hm', halike.sameOutcome⟩

theorem answer_direct (hl : n.Linked [l.name]) (hin : l.inProcess = true) {evs : List Event}
    (h : n.after (.request (.ok (.direct l c)) :: evs) = some m) {a : Except ClusterError Answer}
    (ha : m.answer? n.requests.length = some a) :
    ∃ x number reply, m.processors.get? l.name = some x ∧ x.reply? number = some reply ∧
      a = reply.mapError .processing := by
  rw [after_cons (n.step_direct l c)] at h
  obtain ⟨x, hx⟩ := hl.known l.name (List.mem_singleton_self _)
  have hasked : Asked n.requests.length l c
      { n with requests := n.requests ++ [⟨[⟨l, c, .ready⟩], .only, [], none⟩] } :=
    ⟨_, x, List.getElem?_concat_length, hx, .ready⟩
  exact (hasked.after hin h).answer? ha

/-- A node that has been shut down refuses a job at once. -/
theorem refuse_submit (hx : x.mode = .shutdown) (c : Command) :
    (x.submit c).reply? x.submissions.length = some (.error .shutdown) ∧
    (x.submit c).store = x.store := by
  have hsubmit : x.submit c = { x with submissions := x.submissions ++ [.rejected c] } := by
    unfold Executor.submit
    rw [hx]
  rw [hsubmit]
  refine ⟨?_, rfl⟩
  unfold Executor.reply?
  rw [List.getElem?_concat_length]

theorem transparent (hl : n.Linked [l.name]) (hname : r.name = l.name) (hin : l.inProcess = true)
    (hc : Command.schema.Fits c) : n.Transparent l r c where
  across _ _ h hm := across_link hl hname hc h hm
  back evs n₂ h hm := by
    have hl' : n.Linked [r.name] := by rwa [hname]
    obtain ⟨n₁, hn₁, hsame⟩ := across_link hl' hname.symm hc h (by rwa [hname])
    exact ⟨n₁, hn₁, hsame.1.symm, hsame.2.symm⟩
  answers node hnode evs m h hm a ha := by
    rcases List.mem_pair.1 hnode with rfl | rfl
    · exact answer_direct hl hin h ha
    · have hl' : n.Linked [node.name] := by rwa [hname]
      obtain ⟨n₁, hn₁, hsame⟩ := across_link hl' hname.symm hc h (by rwa [hname])
      rw [← answer?_of_sameOutcome hsame] at ha
      rw [← hsame.1]
      exact answer_direct hl hin hn₁ ha
  served node hnode x s hx hquiet hfits := by
    have hnode : node.name = l.name := by
      rcases List.mem_pair.1 hnode with rfl | rfl
      · rfl
      · exact hname
    have hrun : Store.handler c s = some (.answered (s.handle c).1, (s.handle c).2) := rfl
    have hserving : Executor.Serving ⟨x.submissions.length, c⟩ s (s.handle c).2
        (Outcome.answered (s.handle c).1).reply (x.submit c) := hquiet.submit c
    obtain ⟨es, y, hes, hreply, hy⟩ := hserving.reaches hrun
    rw [← hnode] at hl hx ⊢
    obtain ⟨m, hm, ha, hget⟩ := after_exchange hl hc hx hes hreply hfits
    refine ⟨es, m, hm, ha, ?_⟩
    rw [Network.store?, hget, Option.map_some, hy.store]
  refused node hnode x hx hmode := by
    have hnode : node.name = l.name := by
      rcases List.mem_pair.1 hnode with rfl | rfl
      · rfl
      · exact hname
    obtain ⟨hreply, hstore⟩ := refuse_submit hmode c
    rw [← hnode] at hl hx ⊢
    have hnothing : (x.submit c).after Store.handler [] = some (x.submit c) := rfl
    obtain ⟨m, hm, ha, hget⟩ := after_exchange hl hc hx hnothing hreply (by decide +kernel)
    refine ⟨m, hm, ha, ?_⟩
    rw [Network.store?, hget, Option.map_some, hstore]

/-- **Where a node is makes no difference.**  If the node can be reached over its link, it
does not matter whether a command is sent that way or directly; if it is not registered, the
command ends as unreachable, and no node notices. -/
theorem locality_transparent (n : Network) {l r : Node} (hname : r.name = l.name)
    (hl : l.inProcess = true) (hr : r.inProcess = false) (c : Command) :
    (n.Linked [l.name] → Command.schema.Fits c → n.Transparent l r c) ∧
    (n.scripts.get? r.name = none → n.attached.contains r.name = false →
      ∃ m, n.after [.request (.ok (.direct r c)), .send n.requests.length 0] = some m ∧
        m.answer? n.requests.length =
          some (.error (.communication (.unreachable r.name notAttached))) ∧
        m.processors = n.processors) := by
  refine ⟨fun hlinked hc => transparent hlinked hname hl hc, ?_⟩
  intro hscript hdetached
  let asked : Network := { n with requests := n.requests ++ [⟨[⟨r, c, .ready⟩], .only, [], none⟩] }
  have hlast : asked.requests[n.requests.length]? = some ⟨[⟨r, c, .ready⟩], .only, [], none⟩ :=
    List.getElem?_concat_length
  have hdispatch : asked.dispatch r c = .error (.unreachable r.name notAttached) := by
    unfold dispatch transmit
    have hget : asked.attached.get? r.name = none :=
      Option.isNone_iff_eq_none.1 (Option.isSome_eq_false_iff.1 hdetached)
    rw [if_neg (by rw [hr]; exact Bool.false_ne_true),
      show asked.scripts.get? r.name = none from hscript]
    simp only [hget]
  have hsend : asked.step (.send n.requests.length 0) = some (asked.setRequest n.requests.length
      ⟨[⟨r, c, .ended⟩], .only, [.unreachable r.name notAttached],
        some (.error (.communication (.unreachable r.name notAttached)))⟩) := by
    rw [step_lost hlast rfl hdispatch (.inl ⟨rfl, rfl⟩)]
    exact congrArg (fun q => some (asked.setRequest n.requests.length q)) (record_direct _ _)
  refine ⟨_, (after_cons (n.step_direct r c) _).trans (after_cons hsend []), ?_, ?_⟩
  · exact answer?_setRequest (List.getElem?_eq_some_iff.1 hlast).1 _
  · rfl

/-- A document is stored at a node that can be reached, whichever way, and does not get to
one that cannot. -/
theorem locality_transparent_put : Linked ["right"] pairNetwork ∧ Command.schema.Fits put ∧
    pairNetwork.Transparent (right true) (right false) put ∧
    (∃ es m, pairNetwork.after (exchange 0 (right false) put es) = some m ∧
      m.answer? 0 = some (.ok .done)) ∧
    ∃ m, (pairNetwork.disconnect "right").after
      [.request (.ok (.direct (right false) put)), .send 0 0] = some m ∧
      m.answer? 0 = some (.error (.communication (.unreachable "right" notAttached))) ∧
      m.processors = pairNetwork.processors := by
  let fresh : Store := .empty .empty (.absent "")
  have hlinked : Linked ["right"] pairNetwork := by
    have hall := healthy_pair.connected
    have hsub : ∀ name ∈ ["right"], name ∈ pair.members.map (·.name) := by decide
    exact ⟨⟨fun name h => hall.known name (hsub name h),
      fun name h => hall.attached name (hsub name h),
      fun name h => hall.unscripted name (hsub name h)⟩, by decide +kernel⟩
  have hfits : Command.schema.Fits put := by decide +kernel
  have htransparent :=
    (locality_transparent pairNetwork (l := right true) (r := right false) rfl rfl rfl put).1
    hlinked hfits
  have hreply : Reply.schema.Fits (fresh.handle put).1 := by decide +kernel
  obtain ⟨es, m, hm, ha, -⟩ :=
    htransparent.served (right false) (List.mem_cons_of_mem _ List.mem_cons_self) _ _ rfl
    (Executor.quiet_start 1 fresh) hreply
  refine ⟨hlinked, hfits, htransparent, ⟨es, m, hm, ha⟩, ?_⟩
  exact (locality_transparent (pairNetwork.disconnect "right") (l := right true)
    (r := right false) rfl rfl rfl put).2 rfl rfl

end Network

end BucketCluster
