import BucketCluster.Proofs.Executor.Conservation
import BucketCluster.Proofs.Network.Carrying
import BucketCluster.Proofs.Store.Footprint

/-!
# What nodes are given to do

All that a node ever works on has been sent to it by a coordinator.  So what can be
said of all parts of all plans can be said of all work (`Carries`), and a step of the
network changes no store but by such work (`Carries.store_of_move`).
-/

namespace BucketCluster

/-! ## The jobs of an executor -/

def Submission.job {J : Type} : Submission J → J
  | .entering job => job
  | .accepted job => job
  | .rejected job => job

namespace Executor

variable {σ J : Type} {run : Handler σ J} {x y : Executor σ J} {e : Event J}

/-- All jobs that have ever been submitted. -/
def jobs (x : Executor σ J) : List J := x.submissions.map Submission.job

theorem jobs_submit (x : Executor σ J) (job : J) : (x.submit job).jobs = x.jobs ++ [job] := by
  unfold submit jobs
  cases x.mode <;> exact List.map_append

/-- On its own an executor gets no jobs. -/
theorem jobs_of_step (h : x.step run e = some y) (he : e.isInternal = true) : y.jobs = x.jobs := by
  have htransition := transition_of_step h
  generalize x.work run e = w at htransition
  cases htransition with
  | pushed n job hs ho => exact map_set_of_eq hs rfl
  | handedBack n job hs ho => exact map_set_of_eq hs rfl
  | counted => cases he
  | turnedAway => cases he
  | _ => rfl

/-- Work makes the store what the handler makes of it. -/
theorem store_of_work {t : Ticket J} {o : Outcome} (h : x.step run e = some y)
    (hw : x.work run e = some (t, o)) : run t.job x.store = some (o, y.store) := by
  have htransition := transition_of_step h
  rw [hw] at htransition
  cases htransition with
  | ended i t o s hi hr => exact hr

/-- No job is forgotten. -/
theorem jobs_prefix (h : x.step run e = some y) : x.jobs <+: y.jobs := by
  have htransition := transition_of_step h
  generalize x.work run e = w at htransition
  cases htransition with
  | counted job hm => exact (List.prefix_append _ _).map _
  | turnedAway job hm => exact (List.prefix_append _ _).map _
  | pushed n job hs ho => exact ⟨[], by rw [List.append_nil, jobs_of_step h rfl]⟩
  | handedBack n job hs ho => exact ⟨[], by rw [List.append_nil, jobs_of_step h rfl]⟩
  | _ => exact List.prefix_rfl

/-- Only submitted jobs are worked on. -/
theorem job_of_work {workers : Nat} {store : σ} {log : List (Ticket J × Outcome)}
    (hx : Execution run workers store log x) {t : Ticket J} {o : Outcome}
    (h : x.step run e = some y) (hw : x.work run e = some (t, o)) :
    x.jobs[t.number]? = some t.job := by
  have htransition := transition_of_step h
  rw [hw] at htransition
  cases htransition with
  | ended i t o s hi hr =>
    have haccepted : x.Accepted t := (hx.invariant.recorded.workers i _ hi).1
    rw [jobs, List.getElem?_map, haccepted]
    rfl

end Executor

/-! ## The parts of a request -/

namespace Request

/-- What the request sends, and where. -/
def targets (q : Request) : List (Node × Command) := q.sends.map Send.target

theorem targets_conclude (q : Request) : q.conclude.targets = q.targets := by
  rw [targets, sends_conclude]
  rfl

theorem targets_ofPlan (p : Plan) : (ofPlan (.ok p)).targets = p.sends := by
  rw [ofPlan_ok, targets_conclude]
  exact fresh_targets p

theorem targets_setSending {q : Request} {j : Nat} {s : Send} (hj : q.sends[j]? = some s)
    (sending : Sending) : (q.setSending j s sending).targets = q.targets :=
  map_target_set hj sending

theorem targets_record {q : Request} {j : Nat} {s : Send} (hj : q.sends[j]? = some s)
    (o : SendOutcome) (left : Sending) : (q.record j s o left).targets = q.targets := by
  rw [targets, sends_record]
  exact map_target_set hj left

end Request

namespace Network

variable {n n' : Network} {ev : Event}

/-! ## Dispatching -/

theorem submit_or (n : Network) (name : String) (c : Command) (absent : String) :
    (∃ o, n.submit name c absent = .error o) ∨ ∃ x, n.processors.get? name = some x ∧
      n.submit name c absent = .ok (x.submissions.length, n.setProcessor name (x.submit c)) := by
  unfold submit
  cases n.processors.get? name with
  | none => exact .inl ⟨_, rfl⟩
  | some x => exact .inr ⟨x, rfl, rfl⟩

/-- A node accepts a command as it was written, if it accepts one at all. -/
theorem eq_of_accept {c c' : Command} (h : Service.accept (Command.schema.encode c) = .ok c')
    (hc : Command.schema.Fits c) : c' = c := by
  unfold Service.accept at h
  split at h
  · cases h
  · rw [Schema.decodeFront_encode Command.schema_lawful hc] at h
    exact (Except.ok.inj h).symm

/-- Some command becomes a job at the node, the one that was sent unless it is too long,
or the send ends. -/
theorem dispatch_or (n : Network) (node : Node) (c : Command) :
    (∃ o, n.dispatch node c = .error o) ∨ ∃ x c', n.processors.get? node.name = some x ∧
      (Command.schema.Fits c → c' = c) ∧
      n.dispatch node c = .ok (x.submissions.length, n.setProcessor node.name (x.submit c')) := by
  have hsubmit (c' : Command) (absent : String) (hc' : Command.schema.Fits c → c' = c) :
      (∃ o, n.submit node.name c' absent = .error o) ∨
        ∃ x c'', n.processors.get? node.name = some x ∧ (Command.schema.Fits c → c'' = c) ∧
          n.submit node.name c' absent =
            .ok (x.submissions.length, n.setProcessor node.name (x.submit c'')) :=
    (n.submit_or node.name c' absent).imp id fun ⟨x, hx, h⟩ => ⟨x, c', hx, hc', h⟩
  unfold dispatch
  split
  · exact hsubmit c _ fun _ => rfl
  · unfold transmit
    split
    · exact .inl ⟨_, rfl⟩
    · split
      · split
        · next c' hdecode =>
          refine hsubmit c' _ fun hc => ?_
          rw [Schema.decodeFront_encode Command.schema_lawful hc] at hdecode
          exact (Except.ok.inj hdecode).symm
        · exact .inl ⟨_, rfl⟩
      · split
        · next c' haccept => exact hsubmit c' _ (eq_of_accept haccept)
        · exact .inl ⟨_, rfl⟩
      · exact .inl ⟨_, rfl⟩

/-- What becomes of a send that goes out: its command gets lost, or is a job from now on.
A send that was given up on the way is waited for by nobody. -/
theorem sent_of_step {i j : Nat} (h : n.step (.send i j) = some n') :
    ∃ r s, n.requests[i]? = some r ∧ r.sends[j]? = some s ∧
      ((∃ o r', n.dispatch s.node s.command = .error o ∧
          (s.sending = .ready ∧ r' = r.record j s o ∨
            s.sending = .stray ∧ r' = r.setSending j s .abandoned) ∧
          n' = n.setRequest i r') ∨
        ∃ x c sending, n.processors.get? s.node.name = some x ∧
          (Command.schema.Fits s.command → c = s.command) ∧
          n.dispatch s.node s.command =
            .ok (x.submissions.length, n.setProcessor s.node.name (x.submit c)) ∧
          (s.sending = .ready ∧ sending = .waiting x.submissions.length ∨
            s.sending = .stray ∧ sending = .abandoned) ∧
          n' = (n.setProcessor s.node.name (x.submit c)).setRequest i
            (r.setSending j s sending)) := by
  obtain ⟨r, s, hr, hs, hsend⟩ := send_of_step h
  refine ⟨r, s, hr, hs, ?_⟩
  rcases n.dispatch_or s.node s.command with ⟨o, ho⟩ | ⟨x, c, hx, hc, ho⟩
  · simp only [ho] at hsend
    rcases hsend with ⟨hready, rfl⟩ | ⟨hstray, rfl⟩
    · exact .inl ⟨o, _, ho, .inl ⟨hready, rfl⟩, rfl⟩
    · exact .inl ⟨o, _, ho, .inr ⟨hstray, rfl⟩, rfl⟩
  · simp only [ho] at hsend
    rcases hsend with ⟨hready, rfl⟩ | ⟨hstray, rfl⟩
    · exact .inr ⟨x, c, _, hx, hc, ho, .inl ⟨hready, rfl⟩, rfl⟩
    · exact .inr ⟨x, c, _, hx, hc, ho, .inr ⟨hstray, rfl⟩, rfl⟩

/-! ## Moves -/

/-- What the network can do on its own: `ev` leads from one state to the other. -/
inductive Move (n : Network) : Event → Network → Prop where
  | works {name : String} {e : Executor.Event Command} {x y : Processor} (he : e.isInternal = true)
      (hx : n.processors.get? name = some x) (hy : x.step Store.handler e = some y) :
      Move n (.node name e) (n.setProcessor name y)
  | arrives {i j : Nat} {q : Request} {s : Send} {x : Processor} {sending : Sending}
      (hq : n.requests[i]? = some q) (hs : q.sends[j]? = some s)
      (hx : n.processors.get? s.node.name = some x) :
      Move n (.send i j) ((n.setProcessor s.node.name (x.submit s.command)).setRequest i
        (q.setSending j s sending))
  /-- A request gets further, and still sends the same. -/
  | turns {ev : Event} {i : Nat} {q q' : Request} (hq : n.requests[i]? = some q)
      (htargets : q'.targets = q.targets) : Move n ev (n.setRequest i q')

/-- As long as nothing is sent that is too long, the list of moves is complete. -/
theorem move_of_step (hfits : ∀ q ∈ n.requests, ∀ send ∈ q.targets, Command.schema.Fits send.2)
    (h : n.step ev = some n') (hev : ev.isInternal = true) : n.Move ev n' := by
  cases ev with
  | request plan => cases hev
  | node name e =>
    obtain ⟨x, y, hx, hy, rfl⟩ := node_of_step h
    exact .works hev hx hy
  | send i j =>
    obtain ⟨q, s, hq, hs, hsend⟩ := sent_of_step h
    rcases hsend with ⟨o, q', -, hq', rfl⟩ | ⟨x, c, sending, hx, hc, -, -, rfl⟩
    · rcases hq' with ⟨-, rfl⟩ | ⟨-, rfl⟩
      · exact .turns hq (Request.targets_record hs o .ended)
      · exact .turns hq (Request.targets_setSending hs .abandoned)
    · have hmem : s.target ∈ q.targets := List.mem_map_of_mem (List.mem_of_getElem? hs)
      rw [hc (hfits q (List.mem_of_getElem? hq) s.target hmem)]
      exact .arrives hq hs hx
  | receive i j =>
    obtain ⟨q, s, number, x, reply, hq, hs, -, -, -, rfl⟩ := receive_of_step h
    exact .turns hq (Request.targets_record hs _ .ended)
  | fail i j report =>
    obtain ⟨q, s, e, left, hq, hs, -, -, rfl⟩ := fail_of_step h
    exact .turns hq (Request.targets_record hs _ left)
  | cancel i j =>
    obtain ⟨q, s, hq, hs, -, -, rfl⟩ := cancel_of_step h
    exact .turns hq (Request.targets_setSending hs .abandoned)

/-! ## Traffic -/

/-- Whatever is sent, or has arrived and is worked on, is suited to its node. -/
structure Carries (suits : String → Command → Prop) (n : Network) : Prop where
  executions : ∀ name x, n.processors.get? name = some x →
    ∃ workers store log, Executor.Execution Store.handler workers store log x
  jobs : ∀ name x, n.processors.get? name = some x → ∀ c ∈ x.jobs, suits name c
  targets : ∀ q ∈ n.requests, ∀ send ∈ q.targets,
    suits send.1.name send.2 ∧ Command.schema.Fits send.2

variable {suits : String → Command → Prop}

theorem get?_setProcessor (n : Network) (name name' : String) (x : Processor) :
    (n.setProcessor name x).processors.get? name' =
      if name' = name then some x else n.processors.get? name' := by
  unfold Network.setProcessor
  by_cases hname : name' = name
  · subst hname
    rw [if_pos rfl, SortedMap.get?_insert_self]
  · rw [if_neg hname, SortedMap.get?_insert_of_ne _ _ hname]

theorem Carries.setProcessor (h : n.Carries suits) {name : String} {x : Processor}
    (hx : ∃ workers store log, Executor.Execution Store.handler workers store log x)
    (hjobs : ∀ c ∈ x.jobs, suits name c) : (n.setProcessor name x).Carries suits := by
  refine ⟨?_, ?_, h.targets⟩
  · intro name' y hy
    rw [get?_setProcessor] at hy
    split at hy
    · cases hy
      exact hx
    · exact h.executions name' y hy
  · intro name' y hy
    rw [get?_setProcessor] at hy
    split at hy
    · next hname =>
      subst hname
      cases hy
      exact hjobs
    · exact h.jobs name' y hy

theorem Carries.setRequest (h : n.Carries suits) {i : Nat} {q q' : Request}
    (hq : n.requests[i]? = some q) (htargets : q'.targets = q.targets) :
    (n.setRequest i q').Carries suits := by
  refine ⟨h.executions, h.jobs, ?_⟩
  intro r hr send hs
  rcases List.mem_or_eq_of_mem_set hr with hr | rfl
  · exact h.targets r hr send hs
  · rw [htargets] at hs
    exact h.targets q (List.mem_of_getElem? hq) send hs

/-- A coordinator begins to carry out a plan of which all parts are suited to their nodes. -/
theorem Carries.ask (h : n.Carries suits) {plan : Except ClusterError Plan}
    (hplan : ∀ p, plan = .ok p →
      ∀ send ∈ p.sends, suits send.1.name send.2 ∧ Command.schema.Fits send.2)
    (hn' : n.step (.request plan) = some n') : n'.Carries suits := by
  cases hn'
  refine ⟨h.executions, h.jobs, ?_⟩
  intro q hq send hs
  rcases List.mem_append.1 hq with hq | hq
  · exact h.targets q hq send hs
  · rw [List.mem_singleton.1 hq] at hs
    cases plan with
    | error e => cases hs
    | ok p =>
      rw [Request.targets_ofPlan] at hs
      exact hplan p rfl send hs

theorem Carries.move_of_step (h : n.Carries suits) (hn' : n.step ev = some n')
    (hev : ev.isInternal = true) : n.Move ev n' :=
  Network.move_of_step (fun q hq send hs => (h.targets q hq send hs).2) hn' hev

/-- What the network does on its own brings no other commands to the nodes. -/
theorem Carries.move (h : n.Carries suits) (hm : n.Move ev n') : n'.Carries suits := by
  cases hm with
  | @works name e x y he hx hy =>
    obtain ⟨workers, store, log, hexecution⟩ := h.executions name x hx
    refine h.setProcessor ⟨workers, store, _, hexecution.step hy⟩ ?_
    rw [Executor.jobs_of_step hy he]
    exact h.jobs name x hx
  | turns hq htargets => exact h.setRequest hq htargets
  | @arrives i j q s x sending hq hs hx =>
    obtain ⟨workers, store, log, hexecution⟩ := h.executions _ x hx
    have hsuits := (h.targets q (List.mem_of_getElem? hq) s.target
      (List.mem_map_of_mem (List.mem_of_getElem? hs))).1
    have hsubmitted : (n.setProcessor s.node.name (x.submit s.command)).Carries suits := by
      refine h.setProcessor ⟨workers, store, _, hexecution.step (e := .submit s.command) rfl⟩ ?_
      intro c hc
      rw [Executor.jobs_submit, List.mem_append, List.mem_singleton] at hc
      rcases hc with hc | rfl
      · exact h.jobs _ x hx c hc
      · exact hsuits
    exact hsubmitted.setRequest hq (Request.targets_setSending hs _)

/-! ## Imports -/

/-- A backup that a node has read into a bucket. -/
structure Import where
  node : String
  bucket : String
  /-- The keys of its entries. -/
  keys : List Key
deriving DecidableEq

/-- The backup that is read in a step. -/
def import? (n : Network) : Event → Option Import
  | .node name e => do
    let x ← n.processors.get? name
    let (t, _) ← x.work Store.handler e
    let (b, ks) ← x.store.imported? t.job
    some ⟨name, b, ks⟩
  | _ => none

theorem import?_of_work {name : String} {x : Processor} {e : Executor.Event Command}
    {t : Ticket Command} {o : Outcome} (hx : n.processors.get? name = some x)
    (hw : x.work Store.handler e = some (t, o)) {b : String}
    {ks : List Key} (hks : x.store.imported? t.job = some (b, ks)) :
    n.import? (.node name e) = some ⟨name, b, ks⟩ := by
  simp only [import?, hx, hw, hks, Option.bind_eq_bind, Option.bind_some]

/-- **Only what was sent changes a store.** -/
theorem Carries.store_of_move (h : n.Carries suits) (hm : n.Move ev n') {name : String}
    {y : Processor} (hy : n'.processors.get? name = some y) :
    ∃ x, n.processors.get? name = some x ∧ (y.store = x.store ∨ ∃ c, suits name c ∧
      y.store = (x.store.handle c).2 ∧
      ∀ b ks, x.store.imported? c = some (b, ks) → n.import? ev = some ⟨name, b, ks⟩) := by
  cases hm with
  | @works name' e x x' he hx hstep =>
    rw [get?_setProcessor] at hy
    split at hy
    · next hname =>
      subst hname
      cases hy
      refine ⟨x, hx, ?_⟩
      obtain ⟨workers, store, log, hexecution⟩ := h.executions name x hx
      cases hw : x.work Store.handler e with
      | none =>
        have htransition := Executor.transition_of_step hstep
        rw [hw] at htransition
        exact .inl (Executor.store_of_transition htransition)
      | some w =>
        obtain ⟨t, o⟩ := w
        have hrun := Executor.store_of_work hstep hw
        have hstore : y.store = (x.store.handle t.job).2 :=
          (congrArg Prod.snd (Option.some.inj hrun)).symm
        have hjob := List.mem_of_getElem? (Executor.job_of_work hexecution hstep hw)
        exact .inr ⟨t.job, h.jobs name x hx _ hjob, hstore,
          fun b ks => import?_of_work hx hw⟩
    · exact ⟨y, hy, .inl rfl⟩
  | turns hq htargets => exact ⟨y, hy, .inl rfl⟩
  | @arrives i j q s x sending hq hs hx =>
    change (n.setProcessor s.node.name (x.submit s.command)).processors.get? name = some y at hy
    rw [get?_setProcessor] at hy
    split at hy
    · next hname =>
      subst hname
      cases hy
      refine ⟨x, hx, .inl ?_⟩
      unfold Executor.submit
      cases x.mode <;> rfl
    · exact ⟨y, hy, .inl rfl⟩

end Network

end BucketCluster
