import BucketCluster.Proofs.Coordination.Placement
import BucketCluster.Proofs.Network.Endings
import BucketCluster.Proofs.Network.Observing

/-!
# What happens after the answer

A request that fails is answered at once.  Until its other sends are cancelled they may
still go out, a command that was given up over HTTP may still arrive, and the jobs that
it has left at nodes stay there.  `late_removals` says what may still become of all
that: nothing if the answer is a good one; otherwise, a job whose reply has not been
received may be carried out, one for each send and that once.

The proof follows the jobs of one request by their numbers: for each job that has been
handed out, the send it belongs to either waits for it, or is abandoned, or has ended
and then the reply of the job can be read (`Request.Tracks`), so that no work on it
ends any more.  What a step can do to the sends of a request is listed once
(`Request.Advance`).
-/

namespace BucketCluster

/-! ## Jobs of a request -/

/-- What has become of the job of this number, as far as the send can tell. -/
def Send.Awaits (s : Send) (number : Nat) (x : Processor) : Prop :=
  match s.sending with
  | .ready => False
  | .waiting m => m = number
  | .ended => ∃ reply, x.reply? number = some reply
  | .stray => False
  | .abandoned => True

/-- A send whose command is still to get to its node has no job. -/
theorem Send.not_awaits {s : Send} (hs : s.sending = .ready ∨ s.sending = .stray) {number : Nat}
    {x : Processor} : ¬ s.Awaits number x := by
  unfold Send.Awaits
  rcases hs with hs | hs
  · rw [hs]
    exact id
  · rw [hs]
    exact id

/-- As long as there is no reply to the job, the send has not ended. -/
theorem Send.Awaits.ne_ended {s : Send} {number : Nat} {x : Processor} (h : s.Awaits number x)
    (hnone : ∀ reply, x.reply? number ≠ some reply) : s.sending ≠ .ended := by
  intro hs
  rw [Send.Awaits, hs] at h
  obtain ⟨reply, hreply⟩ := h
  exact hnone reply hreply

/-- The send has become the job of this number at the node. -/
structure Send.Handed (s : Send) (number : Nat) (x : Processor) : Prop where
  awaits : s.Awaits number x
  job : Command.schema.Fits s.command → x.jobs[number]? = some s.command

theorem Send.Handed.keep {s : Send} {number : Nat} {x y : Processor} (h : s.Handed number x)
    (hxy : Network.GoesOn x y) : s.Handed number y := by
  refine ⟨?_, fun hc => hxy.job (h.job hc)⟩
  have hawaits := h.awaits
  unfold Send.Awaits at hawaits ⊢
  cases hs : s.sending with
  | ready => rw [hs] at hawaits; exact hawaits
  | waiting m => rw [hs] at hawaits; exact hawaits
  | ended =>
    rw [hs] at hawaits
    obtain ⟨reply, hreply⟩ := hawaits
    exact ⟨reply, hxy.replies number reply hreply⟩
  | stray => rw [hs] at hawaits; exact hawaits
  | abandoned => trivial

namespace Request

/-- The send in this place has become the job of this number at this node. -/
def Tracks (q : Request) (n : Network) (j : Nat) (name : String) (number : Nat) : Prop :=
  ∃ s x, q.sends[j]? = some s ∧ s.node.name = name ∧ n.processors.get? name = some x ∧
    s.Handed number x

variable {q q' : Request} {n n' : Network} {i j j' number : Nat} {name : String} {s : Send}
  {ev : Network.Event} {note : Option Note}

theorem Tracks.keep (h : q.Tracks n j name number)
    (hn : ∀ name x, n.processors.get? name = some x →
      ∃ y, n'.processors.get? name = some y ∧ Network.GoesOn x y) : q.Tracks n' j name number := by
  obtain ⟨s, x, hs, hname, hx, hhanded⟩ := h
  obtain ⟨y, hy, hxy⟩ := hn name x hx
  exact ⟨s, y, hs, hname, hy, hhanded.keep hxy⟩

/-- One send gets further, and can still tell what has become of its jobs. -/
theorem Tracks.set (h : q.Tracks n j name number) (hj' : q.sends[j']? = some s) {sending : Sending}
    (hq' : q'.sends = q.sends.set j' { s with sending := sending })
    (hnew : ∀ x, n.processors.get? s.node.name = some x → s.Awaits number x →
      Send.Awaits { s with sending := sending } number x) : q'.Tracks n j name number := by
  obtain ⟨s₁, x, hs, hname, hx, hhanded⟩ := h
  unfold Tracks
  rw [hq']
  by_cases hjj : j' = j
  · subst hjj
    cases hj'.symm.trans hs
    refine ⟨_, x, List.getElem?_set_self (List.getElem?_eq_some_iff.1 hs).1, hname, hx, ?_,
      hhanded.job⟩
    exact hnew x (hname ▸ hx) hhanded.awaits
  · exact ⟨s₁, x, (List.getElem?_set_ne hjj).trans hs, hname, hx, hhanded⟩

/-! ## Steps of a request -/

/-- What a step does to the sends of a request, with the note of the step and the
network after it. -/
inductive Advance (q : Request) (n' : Network) : Option Note → Request → Prop where
  | stays {note : Option Note} (hnote : ∀ j name number, note ≠ some (.handed j name number)) :
      Advance q n' note q
  /-- A command gets to its node and is a job from now on. -/
  | hands {j number : Nat} {s : Send} {y : Processor} {sending : Sending}
      (hs : q.sends[j]? = some s) (hsending : s.sending = .ready ∧ sending = .waiting number ∨
        s.sending = .stray ∧ sending = .abandoned)
      (hy : n'.processors.get? s.node.name = some y)
      (hjob : Command.schema.Fits s.command → y.jobs[number]? = some s.command) :
      Advance q n' (some (.handed j s.node.name number)) (q.setSending j s sending)
  /-- A send ends, or is given up, and does not forget its job. -/
  | leaves {j : Nat} {s : Send} {q' : Request} {left : Sending} (hs : q.sends[j]? = some s)
      (hq' : q'.sends = q.sends.set j { s with sending := left })
      (hleft : ∀ number y, n'.processors.get? s.node.name = some y → s.Awaits number y →
        Send.Awaits { s with sending := left } number y) : Advance q n' none q'

theorem Advance.targets (h : q.Advance n' note q') : q'.targets = q.targets := by
  cases h with
  | stays => rfl
  | hands hs => exact targets_setSending hs _
  | leaves hs hq' =>
    rw [Request.targets, hq']
    exact map_target_set hs _

theorem Advance.tracks (h : q.Advance n' note q') (hq : q.Tracks n' j name number) :
    q'.Tracks n' j name number := by
  cases h with
  | stays => exact hq
  | hands hs hsending =>
    refine hq.set hs rfl fun x _ hawaits => ?_
    exact (Send.not_awaits (hsending.imp And.left And.left) hawaits).elim
  | leaves hs hq' hleft => exact hq.set hs hq' fun x hx hawaits => hleft number x hx hawaits

theorem Advance.tracks_handed (h : q.Advance n' (some (.handed j name number)) q') :
    q'.Tracks n' j name number := by
  cases h with
  | stays hnote => exact absurd rfl (hnote j name number)
  | hands hs hsending hy hjob =>
    refine ⟨_, _, List.getElem?_set_self (List.getElem?_eq_some_iff.1 hs).1, rfl, hy, ?_, hjob⟩
    rcases hsending with ⟨-, rfl⟩ | ⟨-, rfl⟩
    · rfl
    · trivial

/-- A send that has become a job does not become one again. -/
theorem Advance.not_tracks (h : q.Advance n' (some (.handed j name number)) q') {name' : String}
    {number' : Nat} : ¬ q.Tracks n j name' number' := by
  rintro ⟨s', x, hs', -, -, hhanded⟩
  cases h with
  | stays hnote => exact hnote j name number rfl
  | hands hs hsending =>
    cases hs.symm.trans hs'
    exact Send.not_awaits (hsending.imp And.left And.left) hhanded.awaits

end Request

namespace Network

variable {n n' : Network} {i j : Nat} {q : Request} {ev : Event} {notes more : List Note}

theorem jobs_submit_length (x : Processor) (c : Command) :
    (x.submit c).jobs[x.submissions.length]? = some c := by
  rw [Executor.jobs_submit, ← List.length_map (f := Submission.job)]
  exact List.getElem?_concat_length

/-- Of what a step does to a request, this is what its jobs notice. -/
theorem advance_of_acts {q' : Request} (hq : n.requests[i]? = some q) (h : n.Acts i q ev n' q') :
    q.Advance n' (n.note? i ev) q' := by
  cases h with
  | rests hev =>
    refine .stays fun j name number heq => ?_
    cases noted_of_note? heq
    exact hev j rfl
  | @hands j s x c sending hs hsending hx hc ho =>
    rw [note?_send hq hs, ho]
    refine .hands hs hsending (y := x.submit c) ((get?_setProcessor ..).trans (if_pos rfl))
      fun hfits => ?_
    rw [← hc hfits]
    exact jobs_submit_length x c
  | fails hs hready ho =>
    rw [note?_send hq hs, ho]
    exact .leaves hs (q.sends_record ..) fun number y _ hawaits =>
      (Send.not_awaits (.inl hready) hawaits).elim
  | loses hs hstray ho =>
    rw [note?_send hq hs, ho]
    exact .leaves hs rfl fun number y _ _ => trivial
  | receives hs hwaiting hx hreply =>
    refine .leaves hs (q.sends_record ..) fun number' y hy hawaits => ?_
    cases hx.symm.trans hy
    rw [Send.Awaits, hwaiting] at hawaits
    exact ⟨_, hawaits ▸ hreply⟩
  | breaks hs he hleft =>
    refine .leaves hs (q.sends_record ..) fun number y _ hawaits => ?_
    rcases hleft with ⟨hready, -⟩ | ⟨-, rfl⟩
    · exact (Send.not_awaits (.inl hready) hawaits).elim
    · trivial
  | cancels hs ha hopen => exact .leaves hs rfl fun number y _ _ => trivial

/-! ## Runs with a request -/

/-- All that is known of request `i`, which sends the command `c`, after a run with these notes. -/
structure Watches (n : Network) (i : Nat) (c : Command) (q : Request) (notes : List Note) :
    Prop where
  request : n.requests[i]? = some q
  settled : q.Settled
  commands : ∀ send ∈ q.targets, send.2 = c
  tracks : ∀ j name number, .handed j name number ∈ notes → q.Tracks n j name number
  /-- A send becomes one job at most. -/
  once : ∀ j name number name' number', .handed j name number ∈ notes →
    .handed j name' number' ∈ notes → name' = name ∧ number' = number
  logs : n.Logs notes

variable {c : Command} {a : Except ClusterError Answer}

theorem Watches.once_step (h : n.Watches i c q notes) {m : Network} {q' : Request}
    {note : Option Note} (hq' : q.Advance m note q') {j : Nat} {name name' : String}
    {number number' : Nat} (hmem : .handed j name number ∈ notes ++ note.toList)
    (hmem' : .handed j name' number' ∈ notes ++ note.toList) : name' = name ∧ number' = number := by
  rw [List.mem_append, Option.mem_toList] at hmem hmem'
  rcases hmem with hmem | rfl
  · rcases hmem' with hmem' | rfl
    · exact h.once j name number name' number' hmem hmem'
    · exact (hq'.not_tracks (h.tracks j name number hmem)).elim
  · rcases hmem' with hmem' | heq
    · exact (hq'.not_tracks (h.tracks j name' number' hmem')).elim
    · cases heq
      exact ⟨rfl, rfl⟩

/-- What is known stays known, and an answer stands. -/
theorem Watches.step (h : n.Watches i c q notes) (hn' : n.step ev = some n') :
    ∃ q', n'.Watches i c q' (notes ++ (n.note? i ev).toList) ∧
      ∀ a, q.answer = some a → q'.answer = some a := by
  obtain ⟨q', hq', hacts⟩ := acts_of_step h.request hn'
  obtain ⟨q'', hq'', hstep⟩ := step_of_request h.request h.settled hn'
  cases hq'.symm.trans hq''
  have hadvance := advance_of_acts h.request hacts
  refine ⟨q', ⟨hq', h.settled.step hstep, hadvance.targets ▸ h.commands, ?_, ?_, h.logs.step hn'⟩,
    fun a => hstep.answer_eq⟩
  · intro j name number hmem
    rcases List.mem_append.1 hmem with hmem | hmem
    · exact hadvance.tracks ((h.tracks j name number hmem).keep fun _ _ => get?_of_step hn')
    · rw [Option.mem_toList.1 hmem] at hadvance
      exact hadvance.tracks_handed
  · intro j name number name' number' hmem hmem'
    exact h.once_step hadvance hmem hmem'

theorem Watches.run (h : n.Watches i c q notes) {evs : List Event}
    (hn' : n.observe i evs = some (more, n')) :
    ∃ q', n'.Watches i c q' (notes ++ more) ∧ ∀ a, q.answer = some a → q'.answer = some a := by
  induction evs generalizing n q notes more with
  | nil =>
    cases hn'
    rw [List.append_nil]
    exact ⟨q, h, fun _ => id⟩
  | cons ev evs ih =>
    obtain ⟨m, rest, hm, hrest, rfl⟩ := of_observe_cons hn'
    obtain ⟨q', hq', hstands⟩ := h.step hm
    obtain ⟨q'', hq'', hstands'⟩ := ih hq' hrest
    rw [← List.append_assoc]
    exact ⟨q'', hq'', fun a ha => hstands' a (hstands a ha)⟩

/-! ## The request for a removal -/

theorem commands_removeBucket (r : Router) (id bucket : String) :
    ∀ send ∈ (Request.ofPlan (r.plan ⟨id, .removeBucket bucket⟩)).targets,
      send.2 = ⟨id, .removeBucket bucket⟩ := by
  cases hplan : r.plan ⟨id, .removeBucket bucket⟩ with
  | error e => exact fun _ => nofun
  | ok p =>
    obtain ⟨f, -, hp⟩ := of_bind_ok hplan
    obtain ⟨ns, -, rfl⟩ := Router.of_toAll hp
    intro send hs
    rw [Request.targets_ofPlan] at hs
    obtain ⟨node, -, rfl⟩ := List.mem_map.1 hs
    rfl

/-- The request has just come in. -/
theorem Executes.watches (hn : n.Executes) (r : Router) (id bucket : String) :
    Watches { n with requests := n.requests ++ [.ofPlan (r.plan ⟨id, .removeBucket bucket⟩)] }
      n.requests.length
      ⟨id, .removeBucket bucket⟩ (.ofPlan (r.plan ⟨id, .removeBucket bucket⟩)) [] where
  request := List.getElem?_concat_length
  settled := Request.settled_ofPlan _
  commands := commands_removeBucket r id bucket
  tracks _ _ _ := nofun
  once _ _ _ _ _ := nofun
  logs := hn.logs

/-- The send in this place goes to this node, and the coordinator has not received the reply. -/
def Outstanding (n : Network) (i j : Nat) (name : String) : Prop :=
  ∃ q s, n.requests[i]? = some q ∧ q.sends[j]? = some s ∧ s.node.name = name ∧ s.sending ≠ .ended

/-- Work on a job that was handed out, after the answer: its reply has not been received. -/
theorem Watches.late {n'' : Network} {name : String} {number : Nat} (h : n'.Watches i c q notes)
    (ha : q.answer = some a) (hn'' : n'.step ev = some n'')
    (hhanded : .handed j name number ∈ notes)
    (hdone : n'.note? i ev = some (.done name number)) :
    (∃ err, a = .error err) ∧ n'.Outstanding i j name ∧
      (Command.schema.Fits c → n''.store? name = (n'.store? name).map fun s => (s.handle c).2) := by
  obtain ⟨s, x, hs, hname, hx, hhanded'⟩ := h.tracks j name number hhanded
  obtain _ | ⟨hx', hw⟩ := noted_of_note? hdone
  cases hx.symm.trans hx'
  obtain ⟨x', y, hx', hy, rfl⟩ := node_of_step hn''
  cases hx.symm.trans hx'
  obtain ⟨workers, store, log, hlog, -⟩ := h.logs name x hx
  -- no work ends on a job that has its reply
  have hended : s.sending ≠ .ended := hhanded'.awaits.ne_ended
    fun reply hreply => Executor.ne_of_reply?_of_work hlog hy hw hreply rfl
  refine ⟨?_, ⟨q, s, h.request, hs, hname, hended⟩, fun hfits => ?_⟩
  · obtain ⟨err, herr⟩ := h.settled.exists_error hs (beq_eq_false_iff_ne.2 hended)
      (Option.isSome_iff_exists.2 ⟨a, ha⟩)
    exact ⟨err, Option.some.inj (ha.symm.trans herr)⟩
  · have hcommand : s.command = c :=
      h.commands s.target (List.mem_map_of_mem (List.mem_of_getElem? hs))
    have hjob := (Executor.job_of_work hlog hy hw).symm.trans (hhanded'.job (hcommand ▸ hfits))
    have hrun := Executor.store_of_work hy hw
    rw [Option.some.inj hjob, hcommand] at hrun
    rw [store?, store?, hx, get?_setProcessor, if_pos rfl]
    exact congrArg some (congrArg Prod.snd (Option.some.inj hrun)).symm

variable {n₀ n'' : Network}

/-- **A removal may outlive its request, but only one that failed.**  Once the request to
remove a bucket is answered, its answer stands, and stores change by work only.  Work on a
job of the request, whether it was handed out before or is handed out after the answer, ends
afterwards only if the answer is an error and the coordinator has not received the reply to
the send; it is the only job of the send, the work on it ends only once, and all that it
does is to remove the bucket at the node. -/
theorem late_removals (hn₀ : n₀.Executes) (r : Router) (id bucket : String) {evs evs' : List Event}
    {notes notes' : List Note} {a : Except ClusterError Answer}
    (hn : n₀.observe n₀.requests.length (.request (r.plan ⟨id, .removeBucket bucket⟩) :: evs) =
      some (notes, n))
    (ha : n.answer? n₀.requests.length = some a)
    (hn' : n.observe n₀.requests.length evs' = some (notes', n')) (hn'' : n'.step ev = some n'') :
    n'.answer? n₀.requests.length = some a ∧
    (∀ name, n''.store? name ≠ n'.store? name →
      ∃ number, n'.note? n₀.requests.length ev = some (.done name number)) ∧
    ∀ j name number, .handed j name number ∈ notes ++ notes' →
      n'.note? n₀.requests.length ev = some (.done name number) →
      (∃ err, a = .error err) ∧ n'.Outstanding n₀.requests.length j name ∧
        (∀ name' number', .handed j name' number' ∈ notes ++ notes' → name' = name ∧
          number' = number) ∧
        .done name number ∉ notes ++ notes' ∧
        (Command.schema.Fits ⟨id, .removeBucket bucket⟩ →
          n''.store? name = (n'.store? name).map fun s =>
            (s.handle ⟨id, .removeBucket bucket⟩).2) := by
  obtain ⟨m, more, hm, hmore, rfl⟩ := of_observe_cons hn
  cases hm
  obtain ⟨q, hq, -⟩ := (hn₀.watches r id bucket).run hmore
  have hanswer : q.answer = some a := by
    rw [answer?, hq.request] at ha
    exact ha
  obtain ⟨q', hq', hstands⟩ := hq.run hn'
  have hanswer' := hstands a hanswer
  refine ⟨?_, fun name hne => done_of_store_ne hn'' hne, fun j name number hmem hdone => ?_⟩
  · rw [answer?, hq'.request]
    exact hanswer'
  · obtain ⟨herr, houtstanding, hstore⟩ := hq'.late hanswer' hn'' hmem hdone
    exact ⟨herr, houtstanding,
      fun name' number' hmem' => hq'.once j name number name' number' hmem hmem',
      hq'.logs.not_mem hn'' hdone, hstore⟩

/-! ## Late removals -/

theorem Executes.after (hn : n.Executes) {evs : List Event} (hn' : n.after evs = some n') :
    n'.Executes := by
  induction evs generalizing n with
  | nil => cases hn'; exact hn
  | cons ev evs ih =>
    obtain ⟨m, hm, hn'⟩ := Option.bind_eq_some_iff.1 hn'
    exact ih (hn.step hm) hn'

theorem executes_pair : pairNetwork.Executes := by
  intro name x hx
  obtain ⟨workers, backups, rfl⟩ :=
    healthy_pair.started name x hx
  exact ⟨workers, _, .start⟩

/-- The document under the key is at the node. -/
def holds (n : Network) (name : String) (k : Key) : Bool :=
  (n.store? name).any fun s => (s.contents "b").contains k

/-- The next request fails with this error, and the work that ends in the step `ev` after
that takes a document from the node. -/
def outlives (n₀ : Network) (evs evs' : List Event) (ev : Event) (notes notes' : List Note)
    (err : ClusterError) (name : String) (number : Nat) (k : Key) : Bool :=
  let i := n₀.requests.length
  (n₀.observe i evs).any fun (told, n) =>
    told == notes && n.answer? i == some (.error err) && (n.observe i evs').any fun (told', n') =>
      told' == notes' && n'.note? i ev == some (.done name number) && n'.holds name k &&
        (n'.step ev).any fun n'' => !n''.holds name k

theorem of_outlives {evs evs' : List Event} {notes notes' : List Note} {err : ClusterError}
    {name : String} {number : Nat} {k : Key}
    (hrun : n₀.outlives evs evs' ev notes notes' err name number k = true) :
    ∃ n n' n'' : Network, n₀.observe n₀.requests.length evs = some (notes, n) ∧
      n.answer? n₀.requests.length = some (.error err) ∧
      n.observe n₀.requests.length evs' = some (notes', n') ∧
      n'.note? n₀.requests.length ev = some (.done name number) ∧ n'.step ev = some n'' ∧
      n'.holds name k = true ∧ n''.holds name k = false := by
  obtain ⟨⟨told, n⟩, hn, h⟩ := Option.any_eq_true .. |>.1 hrun
  simp only [Bool.and_eq_true, beq_iff_eq] at h
  obtain ⟨⟨rfl, ha⟩, hlater⟩ := h
  obtain ⟨⟨told', n'⟩, hn', h'⟩ := Option.any_eq_true .. |>.1 hlater
  simp only [Bool.and_eq_true, beq_iff_eq] at h'
  obtain ⟨⟨⟨rfl, hdone⟩, hheld⟩, hlast⟩ := h'
  obtain ⟨n'', hn'', hlost⟩ := Option.any_eq_true .. |>.1 hlast
  exact ⟨n, n', n'', hn, ha, hn', hdone, hn'', hheld, by simpa using hlost⟩

/-- `left` stores a document in the bucket `b`, and both nodes are paused. -/
def holding : List Event :=
  .request (leftRouter.plan ⟨"1", .putValue "b" ⟨[122]⟩ ⟨[1]⟩ none⟩) :: .send 0 0 ::
    work "left" 0 7 ++ [.receive 0 0, .node "left" .pause, .node "right" .pause]

/-- The removal of the bucket reaches both nodes; `right` is shut down and turns it away. -/
def turningAway : List Event :=
  .request (leftRouter.plan ⟨"2", .removeBucket "b"⟩) ::
    [.send 1 0, .send 1 1, .node "left" (.push 1), .node "right" (.push 0),
      .node "right" .shutdown] ++
    List.replicate 4 (.node "right" (.worker 0)) ++ [.receive 1 1]

/-- The send to `left` is cancelled; `left` goes on, and begins to work on the removal. -/
def resuming : List Event :=
  .cancel 1 0 :: .node "left" .resume :: List.replicate 4 (.node "left" (.worker 0))

/-- `right` stores a document in the bucket `b`. -/
def holdingRemote : List Event :=
  .request (leftRouter.plan put) :: .send 0 0 :: work "right" 0 6 ++ [.receive 0 0]

/-- The client loses patience while the removal of the bucket is on its way to `right`. -/
def losingPatience : List Event :=
  [.request (leftRouter.plan ⟨"2", .removeBucket "b"⟩), .fail 1 1 (.failed "operation timed out"),
    .cancel 1 0]

/-- The removal arrives, and `right` begins to work on it. -/
def arriving : List Event := .send 1 1 :: work "right" 1 5

theorem runs_removal :
    ((pairNetwork.after holding).any fun n₀ => n₀.outlives turningAway resuming
      (.node "left" (.worker 0)) [.handed 0 "left" 1, .handed 1 "right" 0] []
      (.processing .shutdown) "left" 1 ⟨[122]⟩) = true ∧
    ((remotePair.after holdingRemote).any fun n₀ => n₀.outlives losingPatience arriving
      (.node "right" (.worker 0)) [] [.handed 1 "right" 1]
      (.communication (.unreachable "right" "operation timed out")) "right" 1 ⟨[107]⟩) = true := by
  unfold holding turningAway holdingRemote losingPatience
  rw [leftRouter_eq]
  decide +kernel

/-- A send that was cancelled, and one that was given up on its way: the job of either does
what it was to do. -/
theorem late_removals_pair :
    (∃ n₀ n n' n'' : Network, n₀.Executes ∧
      n₀.observe n₀.requests.length turningAway =
        some ([.handed 0 "left" 1, .handed 1 "right" 0], n) ∧
      n.observe n₀.requests.length resuming = some ([], n') ∧
      n'.step (.node "left" (.worker 0)) = some n'' ∧
      n'.answer? n₀.requests.length = some (.error (.processing .shutdown)) ∧
      n'.Outstanding n₀.requests.length 0 "left" ∧
      n''.store? "left" = (n'.store? "left").map fun s => (s.handle ⟨"2", .removeBucket "b"⟩).2) ∧
    ∃ n₀ n n' n'' : Network, n₀.Executes ∧
      n₀.observe n₀.requests.length losingPatience = some ([], n) ∧
      n.observe n₀.requests.length arriving = some ([.handed 1 "right" 1], n') ∧
      n'.step (.node "right" (.worker 0)) = some n'' ∧
      n'.answer? n₀.requests.length =
        some (.error (.communication (.unreachable "right" "operation timed out"))) ∧
      n'.Outstanding n₀.requests.length 1 "right" ∧
      n''.store? "right" = (n'.store? "right").map fun s =>
        (s.handle ⟨"2", .removeBucket "b"⟩).2 := by
  have hfits : Command.schema.Fits ⟨"2", .removeBucket "b"⟩ := by decide +kernel
  constructor
  · obtain ⟨n₀, hn₀, hrun⟩ := Option.any_eq_true .. |>.1 runs_removal.1
    obtain ⟨n, n', n'', hn, ha, hn', hdone, hn'', -⟩ := of_outlives hrun
    have hexecutes := executes_pair.after hn₀
    obtain ⟨ha', -, hlate⟩ := late_removals hexecutes leftRouter "2" "b" hn ha hn' hn''
    obtain ⟨-, hout, -, -, hstore⟩ := hlate 0 "left" 1 List.mem_cons_self hdone
    exact ⟨n₀, n, n', n'', hexecutes, hn, hn', hn'', ha', hout, hstore hfits⟩
  · obtain ⟨n₀, hn₀, hrun⟩ := Option.any_eq_true .. |>.1 runs_removal.2
    obtain ⟨n, n', n'', hn, ha, hn', hdone, hn'', -⟩ := of_outlives hrun
    have hstart : remotePair.Executes := executes_pair
    have hexecutes := hstart.after hn₀
    obtain ⟨ha', -, hlate⟩ := late_removals hexecutes leftRouter "2" "b" hn ha hn' hn''
    obtain ⟨-, hout, -, -, hstore⟩ := hlate 1 "right" 1 List.mem_cons_self hdone
    exact ⟨n₀, n, n', n'', hexecutes, hn, hn', hn'', ha', hout, hstore hfits⟩

/-- An error does not put an end to a removal: after the answer of `right`, `left` loses
the bucket. -/
theorem removes_after_error : ¬ ∀ (n₀ n n' n'' : Network) (r : Router) (id bucket : String)
    (evs evs' : List Event) (ev : Event) (notes notes' : List Note)
    (a : Except ClusterError Answer),
    n₀.Executes →
    n₀.observe n₀.requests.length (.request (r.plan ⟨id, .removeBucket bucket⟩) :: evs) =
      some (notes, n) →
    n.answer? n₀.requests.length = some a → n.observe n₀.requests.length evs' = some (notes', n') →
    n'.step ev = some n'' → ∀ j name number, .handed j name number ∈ notes →
      n'.note? n₀.requests.length ev = some (.done name number) →
      n''.store? name = n'.store? name := by
  intro hclaim
  obtain ⟨n₀, hn₀, hrun⟩ := Option.any_eq_true .. |>.1 runs_removal.1
  obtain ⟨n, n', n'', hn, ha, hn', hdone, hn'', hheld, hlost⟩ := of_outlives hrun
  have hexecutes := executes_pair.after hn₀
  have hsame := hclaim n₀ n n' n'' leftRouter "2" "b" _ _ _ _ _ _ hexecutes hn ha hn' hn''
    0 "left" 1 List.mem_cons_self hdone
  rw [holds, hsame, ← holds, hheld] at hlost
  cases hlost

end Network

end BucketCluster
