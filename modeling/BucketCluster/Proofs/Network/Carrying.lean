import BucketCluster.Network.Step
import BucketCluster.Proofs.Executor.Serving
import BucketCluster.Proofs.Network.Following

/-!
# A network that carries out a plan

A network is at rest over some stores if its nodes are quiet over them and all
requests are done.  A request with a plan that can be carried out leads from one rest
to the next (`Rest.ask`, `Carrying.rest`); in between the network is `Carrying` the
plan, each send of it at some stage.  What the network does on its own, in whatever
order, preserves both (`rest_step`, `carrying_step`) and comes to an end, since
`remaining` counts down; and until the request is answered there is always something
that it can do (`Carrying.progress`).
-/

namespace BucketCluster

/-! ## Weights -/

/-- How many steps a send has ahead of it, those of its job included. -/
def Sending.weight : Sending → Nat
  | .ready => 12
  | .waiting _ => 1
  | .ended => 0
  | .stray => 11
  | .abandoned => 0

def Request.remaining (q : Request) : Nat := (q.sends.map (·.sending.weight)).sum

/-- How many steps the network can take on its own, at most. -/
def Network.remaining (n : Network) : Nat :=
  (n.requests.map Request.remaining).sum + (n.processors.values.map Executor.remaining).sum

namespace Network

/-- The network takes the step on its own, and no connection fails. -/
def Event.isInternal : Event → Bool
  | .node _ e => e.isInternal
  | .request _ => false
  | .send .. => true
  | .receive .. => true
  | .fail .. => false
  | .cancel .. => true

/-! ## Rest -/

/-- The named nodes are there and can be reached. -/
structure Connected (names : List String) (n : Network) : Prop where
  known : ∀ name ∈ names, ∃ x, n.processors.get? name = some x
  attached : ∀ name ∈ names, ∃ link, n.attached.get? name = some link
  unscripted : ∀ name ∈ names, n.scripts.get? name = none

/-- The command is not too long for the links to the named nodes: a server has a limit, and
within a process there is none. -/
def Takes (names : List String) (c : Command) (n : Network) : Prop :=
  ∀ name ∈ names, ∀ refusal, n.attached.get? name = some (.http refusal) →
    (Command.schema.encode c).length ≤ Service.bodyLimit

/-- The requests have the answers, and nothing of them is under way. -/
structure Done (qs : List Request) (answers : List (Except ClusterError Answer)) : Prop where
  answers : qs.map (·.answer) = answers.map some
  ended : ∀ q ∈ qs, ∀ s ∈ q.sends, s.hasEnded = true

/-- All nodes are quiet over their stores, and all requests are done. -/
structure Rest (names : List String) (stores : String → Store)
    (answers : List (Except ClusterError Answer)) (n : Network) : Prop where
  connected : n.Connected names
  quiet : ∀ name x, n.processors.get? name = some x → Executor.Quiet (stores name) x
  done : Done n.requests answers

end Network

/-! ## Carrying out -/

/-- How far the node has come with what is sent to it. -/
def Send.Stage (stores : String → Store) (s : Send) (x : Processor) : Prop :=
  match s.sending with
  | .ready => Executor.Quiet (stores s.node.name) x
  | .waiting number =>
    Executor.Serving ⟨number, s.command⟩ (stores s.node.name)
      ((stores s.node.name).handle s.command).2 (Plan.replyTo stores s.target) x
  | .ended => Executor.Quiet ((stores s.node.name).handle s.command).2 x
  | .stray => False
  | .abandoned => False

namespace Network

/-- The last request follows the plan, its sends are at their stages, and all else is at rest. -/
structure Carrying (names : List String) (stores : String → Store) (p : Plan)
    (a : Except ClusterError Answer) (answers : List (Except ClusterError Answer))
    (qs : List Request) (q : Request) (n : Network) : Prop where
  connected : n.Connected names
  takes : ∀ send ∈ p.sends, n.Takes names send.2
  requests : n.requests = qs ++ [q]
  done : Done qs answers
  follows : q.Follows p stores a
  staged : ∀ s ∈ q.sends, ∃ x, n.processors.get? s.node.name = some x ∧ s.Stage stores x
  others : ∀ name x, n.processors.get? name = some x → (∀ send ∈ p.sends, send.1.name ≠ name) →
    Executor.Quiet (stores name) x

variable {n n' : Network} {names : List String} {stores : String → Store} {p : Plan}
  {a : Except ClusterError Answer} {answers : List (Except ClusterError Answer)} {qs : List Request}
  {q : Request} {ev : Event}

/-! ## Links -/

theorem Connected.setProcessor (h : n.Connected names) (name : String) (x : Processor) :
    (n.setProcessor name x).Connected names where
  known name' hn := by
    unfold Network.setProcessor
    rw [SortedMap.get?_insert]
    split
    · exact ⟨x, rfl⟩
    · exact h.known name' hn
  attached := h.attached
  unscripted := h.unscripted

theorem Connected.setRequest (h : n.Connected names) (i : Nat) (q : Request) :
    (n.setRequest i q).Connected names :=
  ⟨h.known, h.attached, h.unscripted⟩

/-- A server reads what a client has written, unless it is too long. -/
theorem accept_encode {c : Command} (hc : Command.schema.Fits c)
    (hlen : (Command.schema.encode c).length ≤ Service.bodyLimit) :
    Service.accept (Command.schema.encode c) = .ok c := by
  unfold Service.accept
  rw [if_neg (Nat.not_lt.2 hlen), Schema.decodeFront_encode Command.schema_lawful hc]
  rfl

theorem Takes.of_le {c c' : Command} (h : n.Takes names c)
    (hle : (Command.schema.encode c').length ≤ (Command.schema.encode c).length) :
    n.Takes names c' :=
  fun name hn refusal hlink => Nat.le_trans hle (h name hn refusal hlink)

theorem Takes.of_attached {c : Command} (h : n.Takes names c) (hn' : n'.attached = n.attached) :
    n'.Takes names c :=
  fun name hn refusal hlink => h name hn refusal (hn' ▸ hlink)

/-- Commands reach the named nodes. -/
theorem Connected.dispatch (h : n.Connected names) {node : Node} (hn : node.name ∈ names)
    {c : Command} (hc : Command.schema.Fits c) (ht : n.Takes names c) {x : Processor}
    (hx : n.processors.get? node.name = some x) :
    n.dispatch node c = .ok (x.submissions.length, n.setProcessor node.name (x.submit c)) := by
  have hsubmit (absent : String) : n.submit node.name c absent =
      .ok (x.submissions.length, n.setProcessor node.name (x.submit c)) := by
    unfold submit
    rw [hx]
  unfold Network.dispatch
  split
  · exact hsubmit _
  · obtain ⟨link, hlink⟩ := h.attached _ hn
    unfold transmit
    simp only [h.unscripted _ hn, hlink]
    cases link with
    | loopback =>
      simp only [Schema.decodeFront_encode Command.schema_lawful hc]
      exact hsubmit _
    | http refusal =>
      simp only [accept_encode hc (ht _ hn refusal hlink)]
      exact hsubmit _

/-- A response that says success carries the bytes of the reply, like any other link. -/
theorem outcome_link (link : Link) (name : String) (reply : Reply) :
    link.outcome name reply = .ofBytes name (Reply.schema.encode reply) := by
  cases link <;> rfl

theorem outcomeOf_remote (n : Network) {node : Node} (h : node.inProcess = false) (reply : Reply) :
    n.outcomeOf node reply = .ofBytes node.name (Reply.schema.encode reply) := by
  unfold outcomeOf
  rw [h, outcome_link]
  rfl

/-- Replies come back as they are. -/
theorem outcomeOf_eq (n : Network) {node : Node} {reply : Reply} (h : Reply.schema.Fits reply) :
    n.outcomeOf node reply = .ofReply reply := by
  cases hway : node.inProcess with
  | true => exact if_pos hway
  | false =>
    rw [outcomeOf_remote n hway, SendOutcome.ofBytes,
      Schema.decodeFront_encode Reply.schema_lawful h]

/-! ## Stages -/

/-- What an executor does on its own takes no send to another stage. -/
theorem stage_step {s : Send} {x y : Processor} {e : Executor.Event Command}
    (h : x.step Store.handler e = some y) (he : e.isInternal = true) (hx : s.Stage stores x) :
    s.Stage stores y := by
  unfold Send.Stage at hx ⊢
  cases hs : s.sending with
  | ready =>
    rw [hs] at hx
    exact (Executor.quiet_step h he hx).1
  | waiting number =>
    rw [hs] at hx
    exact Executor.serving_step (o := .answered (Plan.replyTo stores s.target)) h he rfl hx
  | ended =>
    rw [hs] at hx
    exact (Executor.quiet_step h he hx).1
  | stray => rw [hs] at hx; exact hx.elim
  | abandoned => rw [hs] at hx; exact hx.elim

/-- A command that is sent to a node is its only job. -/
theorem stage_submit {s : Send} {x : Processor} (hs : s.sending = .ready) (hx : s.Stage stores x) :
    Executor.Undisturbed x ∧
      Send.Stage stores { s with sending := .waiting x.submissions.length }
        (x.submit s.command) := by
  unfold Send.Stage at hx ⊢
  rw [hs] at hx
  simp only at hx ⊢
  exact ⟨hx.toUndisturbed, hx.submit s.command⟩

/-- The reply that can be read is the one of the plan, and the node is done with the command. -/
theorem stage_reply {s : Send} {number : Nat} {x : Processor} {reply : Reply}
    (hs : s.sending = .waiting number) (hx : s.Stage stores x)
    (hreply : x.reply? number = some reply) :
    reply = Plan.replyTo stores s.target ∧ Send.Stage stores { s with sending := .ended } x := by
  unfold Send.Stage at hx ⊢
  rw [hs] at hx
  exact hx.of_reply hreply

theorem stage_undisturbed {s : Send} {x : Processor} (hx : s.Stage stores x) :
    Executor.Undisturbed x := by
  unfold Send.Stage at hx
  cases hs : s.sending with
  | ready => rw [hs] at hx; exact hx.toUndisturbed
  | waiting number => rw [hs] at hx; exact hx.undisturbed
  | ended => rw [hs] at hx; exact hx.toUndisturbed
  | stray => rw [hs] at hx; exact hx.elim
  | abandoned => rw [hs] at hx; exact hx.elim

/-- A send of the plan is not given up on the way. -/
theorem stage_not_stray {s : Send} {x : Processor} (hx : s.Stage stores x) :
    s.sending ≠ .stray := by
  intro hstray
  unfold Send.Stage at hx
  rw [hstray] at hx
  exact hx

/-! ## Steps -/

/-- A node that moves leaves less to do. -/
theorem remaining_node {name : String} {x y : Processor} {e : Executor.Event Command}
    (hx : n.processors.get? name = some x) (h : x.step Store.handler e = some y)
    (he : e.isInternal = true) (hu : Executor.Undisturbed x) :
    (n.setProcessor name y).remaining < n.remaining := by
  have hlt := Executor.remaining_lt h he hu
  have hsum := SortedMap.sum_values_insert Executor.remaining hx y
  simp only [Network.remaining, setProcessor]
  omega

/-- A step of a node is one of its executor. -/
theorem node_of_step {name : String} {e : Executor.Event Command}
    (h : n.step (.node name e) = some n') :
    ∃ x y, n.processors.get? name = some x ∧ x.step Store.handler e = some y ∧
      n' = n.setProcessor name y := by
  simp only [step, Option.bind_eq_bind, Option.bind_eq_some_iff, Option.some.injEq] at h
  obtain ⟨x, hx, y, hy, rfl⟩ := h
  exact ⟨x, y, hx, hy, rfl⟩

/-- A send gets to its node when it is ready, or after its coordinator has given it up. -/
theorem send_of_step {i j : Nat} (h : n.step (.send i j) = some n') :
    ∃ r s, n.requests[i]? = some r ∧ r.sends[j]? = some s ∧
      (s.sending = .ready ∧ n' = (match n.dispatch s.node s.command with
        | .ok (number, n) => n.setRequest i (r.setSending j s (.waiting number))
        | .error o => n.setRequest i (r.record j s o)) ∨
      s.sending = .stray ∧ n' = match n.dispatch s.node s.command with
        | .ok (_, n) => n.setRequest i (r.setSending j s .abandoned)
        | .error _ => n.setRequest i (r.setSending j s .abandoned)) := by
  simp only [step, sendStep, Option.bind_eq_bind, Option.bind_eq_some_iff] at h
  obtain ⟨r, hr, s, hs, h⟩ := h
  refine ⟨r, s, hr, hs, ?_⟩
  cases hsend : s.sending with
  | ready =>
    rw [hsend] at h
    refine .inl ⟨rfl, ?_⟩
    cases hd : n.dispatch s.node s.command with
    | ok d => rw [hd] at h; exact (Option.some.inj h).symm
    | error o => rw [hd] at h; exact (Option.some.inj h).symm
  | stray =>
    rw [hsend] at h
    refine .inr ⟨rfl, ?_⟩
    cases hd : n.dispatch s.node s.command with
    | ok d => rw [hd] at h; exact (Option.some.inj h).symm
    | error o => rw [hd] at h; exact (Option.some.inj h).symm
  | waiting _ => rw [hsend] at h; cases h
  | ended => rw [hsend] at h; cases h
  | abandoned => rw [hsend] at h; cases h

theorem receive_of_step {i j : Nat} (h : n.step (.receive i j) = some n') :
    ∃ r s number x reply, n.requests[i]? = some r ∧ r.sends[j]? = some s ∧
      s.sending = .waiting number ∧ n.processors.get? s.node.name = some x ∧
      x.reply? number = some reply ∧
      n' = n.setRequest i (r.record j s (n.outcomeOf s.node reply)) := by
  simp only [step, receiveStep, Option.bind_eq_bind, Option.bind_eq_some_iff] at h
  obtain ⟨r, hr, s, hs, h⟩ := h
  cases hsend : s.sending with
  | waiting number =>
    rw [hsend] at h
    simp only [Option.bind_eq_some_iff, Option.some.injEq] at h
    obtain ⟨x, hx, reply, hreply, rfl⟩ := h
    exact ⟨r, s, number, x, reply, hr, hs, hsend, hx, hreply, rfl⟩
  | ready => rw [hsend] at h; cases h
  | ended => rw [hsend] at h; cases h
  | stray => rw [hsend] at h; cases h
  | abandoned => rw [hsend] at h; cases h

/-- A send that fails over HTTP may leave its command on the way, or its job at the node. -/
theorem fail_of_step {i j : Nat} {report : HttpReport} (h : n.step (.fail i j report) = some n') :
    ∃ r s e left, n.requests[i]? = some r ∧ r.sends[j]? = some s ∧
      n.linkFailure? s.node report = some e ∧
      (s.sending = .ready ∧ left = .stray ∨
        (∃ number, s.sending = .waiting number) ∧ left = .abandoned) ∧
      n' = n.setRequest i (r.record j s (.failed (.communication e)) left) := by
  simp only [step, failStep, Option.bind_eq_bind, Option.bind_eq_some_iff] at h
  obtain ⟨r, hr, s, hs, e, he, h⟩ := h
  cases hsend : s.sending with
  | ready =>
    rw [hsend] at h
    exact ⟨r, s, e, .stray, hr, hs, he, .inl ⟨hsend, rfl⟩, (Option.some.inj h).symm⟩
  | waiting number =>
    rw [hsend] at h
    exact ⟨r, s, e, .abandoned, hr, hs, he, .inr ⟨⟨number, hsend⟩, rfl⟩, (Option.some.inj h).symm⟩
  | ended => rw [hsend] at h; cases h
  | stray => rw [hsend] at h; cases h
  | abandoned => rw [hsend] at h; cases h

theorem cancel_of_step {i j : Nat} (h : n.step (.cancel i j) = some n') :
    ∃ r s, n.requests[i]? = some r ∧ r.sends[j]? = some s ∧ r.answer.isSome = true ∧
      s.isOpen = true ∧ n' = n.setRequest i (r.setSending j s .abandoned) := by
  simp only [step, cancelStep, Option.bind_eq_bind, Option.bind_eq_some_iff] at h
  obtain ⟨r, hr, s, hs, h⟩ := h
  split at h
  · next hopen =>
    rw [Bool.and_eq_true] at hopen
    exact ⟨r, s, hr, hs, hopen.1, hopen.2, (Option.some.inj h).symm⟩
  · cases h

/-- Nothing goes out and nothing comes in for requests that are done. -/
theorem Done.ended_of_getElem? (h : Done qs answers) {i j : Nat} {r : Request} {s : Send}
    (hr : qs[i]? = some r) (hs : r.sends[j]? = some s) : s.hasEnded = true :=
  h.ended r (List.mem_of_getElem? hr) s (List.mem_of_getElem? hs)

/-- What is done is neither ready nor waited for nor given up. -/
theorem Done.sending_of_getElem? (h : Done qs answers) {i j : Nat} {r : Request} {s : Send}
    (hr : qs[i]? = some r) (hs : r.sends[j]? = some s) : s.sending = .ended :=
  eq_of_beq (h.ended_of_getElem? hr hs)

/-- At rest, all that can move are nodes that have nothing to do. -/
theorem rest_step (h : n.step ev = some n') (hev : ev.isInternal = true)
    (hn : n.Rest names stores answers) :
    n'.Rest names stores answers ∧ n'.remaining < n.remaining := by
  cases ev with
  | node name e =>
    obtain ⟨x, y, hx, hy, rfl⟩ := node_of_step h
    have hquiet := hn.quiet name x hx
    refine ⟨⟨hn.connected.setProcessor name y, ?_, hn.done⟩,
      remaining_node hx hy hev hquiet.toUndisturbed⟩
    intro name' z hz
    simp only [setProcessor, SortedMap.get?_insert] at hz
    split at hz
    · next heq =>
      obtain rfl := Std.LawfulEqCmp.eq_of_compare heq
      cases hz
      exact (Executor.quiet_step hy hev hquiet).1
    · exact hn.quiet name' z hz
  | request plan => cases hev
  | send i j =>
    obtain ⟨r, s, hr, hs, ⟨hsend, -⟩ | ⟨hsend, -⟩⟩ := send_of_step h
    · cases hsend.symm.trans (hn.done.sending_of_getElem? hr hs)
    · cases hsend.symm.trans (hn.done.sending_of_getElem? hr hs)
  | receive i j =>
    obtain ⟨r, s, number, -, -, hr, hs, hwaiting, -⟩ := receive_of_step h
    cases hwaiting.symm.trans (hn.done.sending_of_getElem? hr hs)
  | fail i j report => cases hev
  | cancel i j =>
    obtain ⟨r, s, hr, hs, -, hopen, -⟩ := cancel_of_step h
    rw [Send.isOpen, hn.done.sending_of_getElem? hr hs] at hopen
    cases hopen

/-! ## Carrying out, step by step -/

theorem Carrying.mem_plan (hc : Carrying names stores p a answers qs q n) {s : Send}
    (hs : s ∈ q.sends) : (s.node, s.command) ∈ p.sends := by
  rw [← hc.follows.sends]
  exact List.mem_map_of_mem (f := Send.target) hs

theorem Carrying.names_nodup (hc : Carrying names stores p a answers qs q n)
    (hp : p.Faithful names stores a) : (q.sends.map (·.node.name)).Nodup := by
  have hnames : q.sends.map (·.node.name) = p.sends.map (·.1.name) := by
    rw [← hc.follows.sends, List.map_map]
    rfl
  rw [hnames]
  exact hp.distinct

/-- A send that is under way is one of the last request. -/
theorem Carrying.last_of_getElem? (hc : Carrying names stores p a answers qs q n) {i j : Nat}
    {r : Request} {s : Send} (hr : n.requests[i]? = some r) (hs : r.sends[j]? = some s)
    (hend : s.hasEnded = false) : i = qs.length ∧ r = q := by
  rw [hc.requests] at hr
  rcases getElem?_concat_or hr with hr | hlast
  · rw [hc.done.ended_of_getElem? hr hs] at hend
    cases hend
  · exact hlast

/-- One send gets to another stage, and the node that it goes to with it. -/
theorem Carrying.advance (hc : Carrying names stores p a answers qs q n)
    (hp : p.Faithful names stores a) {j : Nat} {s : Send} (hj : q.sends[j]? = some s)
    (sending : Sending) {q' : Request}
    (hsends : q'.sends = q.sends.set j { s with sending := sending }) (hq' : q'.Follows p stores a)
    (hn' : n'.Connected names) (htakes : ∀ send ∈ p.sends, n'.Takes names send.2)
    (hreq : n'.requests = qs ++ [q']) {x : Processor}
    (hx : n'.processors.get? s.node.name = some x)
    (hstage : Send.Stage stores { s with sending := sending } x)
    (hsame : ∀ name, name ≠ s.node.name → n'.processors.get? name = n.processors.get? name) :
    Carrying names stores p a answers qs q' n' := by
  refine ⟨hn', htakes, hreq, hc.done, hq', ?_, ?_⟩
  · intro s₁ hs₁
    rw [hsends] at hs₁
    obtain ⟨i, hi⟩ := List.mem_iff_getElem?.1 hs₁
    rcases getElem?_set_or hi with ⟨hi, hne⟩ | rfl
    · -- no other send goes to the same node
      have hother : s₁.node.name ≠ s.node.name := by
        intro heq
        have hlt : i < (q.sends.map (·.node.name)).length := by
          rw [List.length_map]
          exact (List.getElem?_eq_some_iff.1 hi).1
        refine hne ((List.getElem?_inj hlt (hc.names_nodup hp)).1 ?_).symm
        rw [List.getElem?_map, List.getElem?_map, hi, hj, Option.map_some, Option.map_some, heq]
      obtain ⟨y, hy, hs⟩ := hc.staged s₁ (List.mem_of_getElem? hi)
      exact ⟨y, (hsame _ hother).trans hy, hs⟩
    · exact ⟨x, hx, hstage⟩
  · intro name y hy hname
    have hne : name ≠ s.node.name := (hname _ (hc.mem_plan (List.mem_of_getElem? hj))).symm
    exact hc.others name y ((hsame name hne).symm.trans hy) hname

theorem Carrying.requests_set (hc : Carrying names stores p a answers qs q n) (q' : Request) :
    n.requests.set qs.length q' = qs ++ [q'] := by
  rw [hc.requests, List.set_append_right _ _ (Nat.le_refl _), Nat.sub_self]
  rfl

/-- What is left to do after the last request has changed. -/
theorem Carrying.remaining_requests (hc : Carrying names stores p a answers qs q n) {j : Nat}
    {s : Send} {q' : Request} (hj : q.sends[j]? = some s) (sending : Sending)
    (hsends : q'.sends = q.sends.set j { s with sending := sending }) :
    ((n.requests.set qs.length q').map Request.remaining).sum + s.sending.weight =
      (n.requests.map Request.remaining).sum + sending.weight := by
  have hsum : ((q.sends.set j { s with sending := sending }).map (·.sending.weight)).sum +
      s.sending.weight = (q.sends.map (·.sending.weight)).sum + sending.weight :=
    sum_map_set_add (fun s : Send => s.sending.weight) hj { s with sending := sending }
  rw [hc.requests_set q', hc.requests, List.map_append, List.map_append, List.sum_append,
    List.sum_append]
  simp only [List.map_singleton, List.sum_singleton, Request.remaining, hsends]
  omega

theorem remaining_submit {x : Processor} (hx : Executor.Undisturbed x) (c : Command) :
    (x.submit c).remaining = x.remaining + 10 := by
  unfold Executor.submit
  rw [hx.mode]
  simp only [Executor.remaining, List.map_append, List.map_singleton, List.sum_append,
    List.sum_singleton, Submission.rank]
  omega

theorem Carrying.node_step (hc : Carrying names stores p a answers qs q n) {name : String}
    {x y : Processor} {e : Executor.Event Command} (hx : n.processors.get? name = some x)
    (hy : x.step Store.handler e = some y) (he : e.isInternal = true) :
    Carrying names stores p a answers qs q (n.setProcessor name y) ∧ Executor.Undisturbed x := by
  refine ⟨⟨hc.connected.setProcessor name y, hc.takes, hc.requests, hc.done, hc.follows, ?_, ?_⟩,
    ?_⟩
  · intro s hs
    obtain ⟨z, hz, hstage⟩ := hc.staged s hs
    by_cases hsn : s.node.name = name
    · subst hsn
      rw [hx] at hz
      cases hz
      exact ⟨y, SortedMap.get?_insert_self _ _ _, stage_step hy he hstage⟩
    · exact ⟨z, (SortedMap.get?_insert_of_ne _ _ hsn).trans hz, hstage⟩
  · intro name' z hz hname
    by_cases hn : name' = name
    · subst hn
      rw [setProcessor, SortedMap.get?_insert_self] at hz
      cases hz
      exact (Executor.quiet_step hy he (hc.others name' x hx hname)).1
    · rw [setProcessor, SortedMap.get?_insert_of_ne _ _ hn] at hz
      exact hc.others name' z hz hname
  · by_cases hsend : ∃ s ∈ q.sends, s.node.name = name
    · obtain ⟨s, hs, rfl⟩ := hsend
      obtain ⟨z, hz, hstage⟩ := hc.staged s hs
      rw [hx] at hz
      cases hz
      exact stage_undisturbed hstage
    · refine (hc.others name x hx fun send hs heq => hsend ?_).toUndisturbed
      rw [← hc.follows.sends] at hs
      obtain ⟨s, hmem, rfl⟩ := List.mem_map.1 hs
      exact ⟨s, hmem, heq⟩

/-- A command arrives at its node. -/
theorem Carrying.send_step (hc : Carrying names stores p a answers qs q n)
    (hp : p.Faithful names stores a) {i j : Nat} (h : n.step (.send i j) = some n') :
    ∃ q', Carrying names stores p a answers qs q' n' ∧ n'.remaining < n.remaining := by
  obtain ⟨r, s, hr, hj, hsend⟩ := send_of_step h
  have hend : s.hasEnded = false := by
    rcases hsend with ⟨hready, -⟩ | ⟨hstray, -⟩
    · rw [Send.hasEnded, hready]; rfl
    · rw [Send.hasEnded, hstray]; rfl
  obtain ⟨rfl, rfl⟩ := hc.last_of_getElem? hr hj hend
  have hmem := List.mem_of_getElem? hj
  obtain ⟨x, hx, hstage⟩ := hc.staged s hmem
  obtain ⟨hready, rfl⟩ := hsend.resolve_right fun hstray => stage_not_stray hstage hstray.1
  obtain ⟨hu, hstage'⟩ := stage_submit hready hstage
  have hplan := hc.mem_plan hmem
  rw [hc.connected.dispatch (hp.known (s.node, s.command) hplan)
    (hp.command_fits (s.node, s.command) hplan) (hc.takes (s.node, s.command) hplan) hx]
  refine ⟨r.setSending j s (.waiting x.submissions.length),
    hc.advance hp hj (.waiting x.submissions.length) rfl (hc.follows.setWaiting hj hend _)
      ((hc.connected.setProcessor _ _).setRequest _ _) hc.takes (hc.requests_set _)
      (SortedMap.get?_insert_self _ _ _) hstage'
      fun name hne => SortedMap.get?_insert_of_ne _ _ hne,
    ?_⟩
  have hsends : (r.setSending j s (.waiting x.submissions.length)).sends =
      r.sends.set j { s with sending := .waiting x.submissions.length } := rfl
  have hreq := hc.remaining_requests hj (.waiting x.submissions.length) hsends
  have hnodes := SortedMap.sum_values_insert Executor.remaining hx (x.submit s.command)
  rw [remaining_submit hu] at hnodes
  rw [hready] at hreq
  simp only [Sending.weight] at hreq
  simp only [Network.remaining, setRequest, setProcessor]
  omega

/-- A reply arrives at the coordinator. -/
theorem Carrying.receive_step (hc : Carrying names stores p a answers qs q n)
    (hp : p.Faithful names stores a) {i j : Nat} (h : n.step (.receive i j) = some n') :
    ∃ q', Carrying names stores p a answers qs q' n' ∧ n'.remaining < n.remaining := by
  obtain ⟨r, s, number, x, reply, hr, hj, hwaiting, hx, hreply, rfl⟩ := receive_of_step h
  have hend : s.hasEnded = false := by rw [Send.hasEnded, hwaiting]; rfl
  obtain ⟨rfl, rfl⟩ := hc.last_of_getElem? hr hj hend
  have hmem := List.mem_of_getElem? hj
  obtain ⟨x', hx', hstage⟩ := hc.staged s hmem
  rw [hx] at hx'
  cases hx'
  obtain ⟨rfl, hstage'⟩ := stage_reply hwaiting hstage hreply
  have hfits : Reply.schema.Fits (Plan.replyTo stores s.target) :=
    hp.reply_fits (s.node, s.command) (hc.mem_plan hmem)
  have hfollows := hc.follows.record hp.delivers hj hend
  have hsends := r.sends_record j s (.ofReply (Plan.replyTo stores s.target)) .ended
  rw [outcomeOf_eq n hfits]
  refine ⟨_, hc.advance hp hj .ended hsends hfollows (hc.connected.setRequest _ _) hc.takes
    (hc.requests_set _) hx hstage' fun _ _ => rfl, ?_⟩
  have hreq := hc.remaining_requests hj .ended hsends
  rw [hwaiting] at hreq
  simp only [Sending.weight] at hreq
  simp only [Network.remaining, setRequest]
  omega

/-- No send of the plan is cancelled before it has ended. -/
theorem Carrying.not_cancel (hc : Carrying names stores p a answers qs q n) {i j : Nat} :
    n.step (.cancel i j) ≠ some n' := by
  intro h
  obtain ⟨r, s, hr, hj, ha, hopen, -⟩ := cancel_of_step h
  have hend := hasEnded_of_isOpen hopen
  obtain ⟨rfl, rfl⟩ := hc.last_of_getElem? hr hj hend
  rw [hc.follows.answer_eq_none (List.mem_of_getElem? hj) hend] at ha
  cases ha

/-- **Carrying out a plan.** Whatever the network does on its own keeps it carrying out the
plan, and there is less to do afterwards. -/
theorem carrying_step (hp : p.Faithful names stores a) (h : n.step ev = some n')
    (hev : ev.isInternal = true) (hc : Carrying names stores p a answers qs q n) :
    ∃ q', Carrying names stores p a answers qs q' n' ∧ n'.remaining < n.remaining := by
  cases ev with
  | node name e =>
    obtain ⟨x, y, hx, hy, rfl⟩ := node_of_step h
    obtain ⟨hc', hu⟩ := hc.node_step hx hy hev
    exact ⟨q, hc', remaining_node hx hy hev hu⟩
  | request plan => cases hev
  | send i j => exact hc.send_step hp h
  | receive i j => exact hc.receive_step hp h
  | fail i j report => cases hev
  | cancel i j => exact (hc.not_cancel h).elim

/-! ## From rest to rest -/

/-- A request with a plan that can be carried out is carried out. -/
theorem Rest.ask (h : n.Rest names stores answers) (hp : p.Faithful names stores a)
    (ht : ∀ send ∈ p.sends, n.Takes names send.2) (hn' : n.step (.request (.ok p)) = some n') :
    Carrying names stores p a answers n.requests (.ofPlan (.ok p)) n' := by
  cases hn'
  have hfollows := Request.follows_ofPlan hp.delivers
  have hsends : (Request.ofPlan (.ok p)).sends = (Request.fresh p).sends := Request.sends_conclude _
  refine ⟨⟨h.connected.known, h.connected.attached, h.connected.unscripted⟩, ht, rfl, h.done,
    hfollows, ?_, fun name x hx _ => h.quiet name x hx⟩
  intro s hs
  rw [hsends] at hs
  obtain ⟨send, hsend, rfl⟩ := List.mem_map.1 hs
  obtain ⟨x, hx⟩ := h.connected.known _ (hp.known send hsend)
  exact ⟨x, hx, h.quiet _ x hx⟩

/-- A request that finds no plan is answered with that. -/
theorem Rest.ask_error (h : n.Rest names stores answers) {e : ClusterError}
    (hn' : n.step (.request (.error e)) = some n') :
    n'.Rest names stores (answers ++ [.error e]) := by
  cases hn'
  refine ⟨⟨h.connected.known, h.connected.attached, h.connected.unscripted⟩, h.quiet, ⟨?_, ?_⟩⟩
  · rw [List.map_append, List.map_append, h.done.answers]
    rfl
  · intro r hr s hs
    rcases List.mem_append.1 hr with hr | hr
    · exact h.done.ended r hr s hs
    · rw [List.mem_singleton.1 hr] at hs
      cases hs

/-- Once the request is answered, the plan has been carried out, and the network is at rest. -/
theorem Carrying.rest (hc : Carrying names stores p a answers qs q n)
    (hp : p.Faithful names stores a) (hq : q.answer.isSome = true) :
    n.Rest names (p.after stores) (answers ++ [a]) := by
  have hanswer := hc.follows.answer
  by_cases hall : q.sends.all Send.hasEnded = true
  · rw [if_pos hall] at hanswer
    refine ⟨hc.connected, ?_, ⟨?_, ?_⟩⟩
    · intro name x hx
      by_cases hsend : ∃ s ∈ q.sends, s.node.name = name
      · obtain ⟨s, hs, rfl⟩ := hsend
        obtain ⟨y, hy, hstage⟩ := hc.staged s hs
        rw [hx] at hy
        cases hy
        have hended : s.sending = .ended := eq_of_beq (List.all_eq_true.1 hall s hs)
        unfold Send.Stage at hstage
        rw [hended] at hstage
        rw [hp.after_of_mem (hc.mem_plan hs)]
        exact hstage
      · have hname : ∀ send ∈ p.sends, send.1.name ≠ name := fun send hs heq => hsend <| by
          rw [← hc.follows.sends] at hs
          obtain ⟨s, hmem, rfl⟩ := List.mem_map.1 hs
          exact ⟨s, hmem, heq⟩
        rw [Plan.after_of_not_mem hname]
        exact hc.others name x hx hname
    · rw [hc.requests, List.map_append, List.map_append, hc.done.answers,
        List.map_singleton, hanswer]
      rfl
    · intro r hr s hs
      rw [hc.requests] at hr
      rcases List.mem_append.1 hr with hr | hr
      · exact hc.done.ended r hr s hs
      · rw [List.mem_singleton.1 hr] at hs
        exact List.all_eq_true.1 hall s hs
  · rw [if_neg hall] at hanswer
    rw [hanswer] at hq
    cases hq

/-- **No waiting in vain.** Until the request is answered, the network can take a step on its
own. -/
theorem Carrying.progress (hc : Carrying names stores p a answers qs q n)
    (hp : p.Faithful names stores a) (hq : q.answer = none) :
    ∃ ev : Event, ev.isInternal = true ∧ (n.step ev).isSome = true := by
  have hanswer := hc.follows.answer
  rw [hq] at hanswer
  have hall : ¬q.sends.all Send.hasEnded = true := by
    intro hall
    rw [if_pos hall] at hanswer
    cases hanswer
  obtain ⟨s, hs, hend⟩ : ∃ s ∈ q.sends, s.hasEnded = false := by
    simpa using hall
  obtain ⟨j, hj⟩ := List.mem_iff_getElem?.1 hs
  obtain ⟨x, hx, hstage⟩ := hc.staged s hs
  have hlast : n.requests[qs.length]? = some q := by
    rw [hc.requests]
    exact List.getElem?_concat_length
  have hplan := hc.mem_plan hs
  cases hsend : s.sending with
  | ready =>
    refine ⟨.send qs.length j, rfl, ?_⟩
    simp only [step, sendStep, hlast, hj, hsend, Option.bind_eq_bind, Option.bind_some,
      hc.connected.dispatch (hp.known (s.node, s.command) hplan)
        (hp.command_fits (s.node, s.command) hplan) (hc.takes (s.node, s.command) hplan) hx,
      Option.isSome_some]
  | waiting number =>
    unfold Send.Stage at hstage
    rw [hsend] at hstage
    have hrun : Store.handler s.command (stores s.node.name) =
        some (.answered (Plan.replyTo stores s.target),
          ((stores s.node.name).handle s.command).2) := rfl
    rcases hstage.progress hrun with ⟨e, he, hstep⟩ | hreply
    · obtain ⟨y, hy⟩ := Option.isSome_iff_exists.1 hstep
      refine ⟨.node s.node.name e, he, ?_⟩
      simp only [step, hx, hy, Option.bind_eq_bind, Option.bind_some, Option.isSome_some]
    · refine ⟨.receive qs.length j, rfl, ?_⟩
      simp only [step, receiveStep, hlast, hj, hsend, hx, hreply, Option.bind_eq_bind,
        Option.bind_some, Option.isSome_some]
  | ended =>
    rw [Send.hasEnded, hsend] at hend
    cases hend
  | stray => exact (stage_not_stray hstage hsend).elim
  | abandoned =>
    unfold Send.Stage at hstage
    rw [hsend] at hstage
    exact hstage.elim

end Network

end BucketCluster
