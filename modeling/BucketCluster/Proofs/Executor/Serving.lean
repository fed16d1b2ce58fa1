import BucketCluster.Proofs.Executor.Records

/-!
# One job at a time

An executor that nobody has paused or shut down and that has no open job is quiet.
A job that is submitted to it takes it from one quiet state to the next: in between
the executor is `Serving` the job, which its own steps preserve (`serving_step`),
and always has a step to take until the reply can be read (`Serving.progress`).

What it does on its own comes to an end: `remaining` counts the steps down.
-/

namespace BucketCluster

/-- Idle, or done with a job except for saying so. -/
def Worker.isFree {J : Type} : Worker J → Bool
  | .idle => true
  | .replied _ => true
  | _ => false

/-- The worker has the job, and its work has not ended. -/
def Worker.Carries {J : Type} (t : Ticket J) : Worker J → Prop
  | .arrived t' => t' = t
  | .listening t' _ => t' = t
  | .admitted t' => t' = t
  | .running t' => t' = t
  | _ => False

/-- How many steps a worker can take before it needs the next job, at most. -/
def Worker.rank {J : Type} : Worker J → Nat
  | .asleep .. => 9
  | .arrived _ => 8
  | .listening .. => 7
  | .admitted _ => 6
  | .running _ => 5
  | .handled .. => 4
  | .replied _ => 3
  | .refused _ => 1
  | .idle => 0
  | .stopped => 0

/-- The steps that a submission has ahead of it, those of its job included. -/
def Submission.rank {J : Type} : Submission J → Nat
  | .entering _ => 10
  | .accepted _ => 0
  | .rejected _ => 0

namespace Executor

variable {σ J : Type}

/-- The executor takes the step on its own. -/
def Event.isInternal : Event J → Bool
  | .push _ => true
  | .worker _ => true
  | _ => false

/-! ## Invariants -/

/-- Nobody has paused the executor or shut it down. -/
structure Undisturbed (x : Executor σ J) : Prop where
  mode : x.mode = .running
  isOpen : x.queue.isOpen = true
  calls : x.calls = []
  staffed : x.workers ≠ []

/-- All workers are free, with one exception. -/
structure Others (busy : Option Nat) (x : Executor σ J) : Prop extends Undisturbed x where
  free : ∀ i w, x.workers[i]? = some w → busy ≠ some i → w.isFree = true

/-- No submission is on its way. -/
def AllIn (x : Executor σ J) : Prop :=
  ∀ (n : Nat) (job : J), x.submissions[n]? ≠ some (.entering job)

/-- No job is open. -/
structure Quiet (s : σ) (x : Executor σ J) : Prop extends Others none x where
  store : x.store = s
  waiting : x.queue.waiting = []
  allIn : x.AllIn
  numbered : ∀ a ∈ x.replies, a.1 < x.submissions.length

/-- The job has been accepted and not answered. -/
structure Open (t : Ticket J) (busy : Option Nat) (x : Executor σ J) : Prop
    extends Others busy x where
  accepted : x.Accepted t
  allIn : x.AllIn
  numbered : ∀ a ∈ x.replies, a.1 < x.submissions.length
  unanswered : ∀ a ∈ x.replies, a.1 ≠ t.number

/-- The executor has one job, which leads from one store to another and to a reply. -/
inductive Serving (t : Ticket J) (s s' : σ) (r : Reply) (x : Executor σ J) : Prop where
  | entering (ho : Others none x) (hs : x.store = s) (hq : x.queue.waiting = [])
      (hin : x.submissions[t.number]? = some (.entering t.job))
      (hlast : ∀ n job, x.submissions[n]? = some (.entering job) → n = t.number)
      (hnum : ∀ a ∈ x.replies, a.1 < x.submissions.length) (hopen : ∀ a ∈ x.replies, a.1 ≠ t.number)
  | waiting (ho : Open t none x) (hs : x.store = s) (hq : x.queue.waiting = [t])
  | carried (i : Nat) (w : Worker J) (ho : Open t (some i) x) (hs : x.store = s)
      (hq : x.queue.waiting = []) (hi : x.workers[i]? = some w) (hw : w.Carries t)
  | handled (i : Nat) (ho : Open t (some i) x) (hs : x.store = s') (hq : x.queue.waiting = [])
      (hi : x.workers[i]? = some (.handled t r))
  | served (hx : Quiet s' x) (hr : x.reply? t.number = some r)

/-- How many steps the executor can take on its own, at most. -/
def remaining (x : Executor σ J) : Nat :=
  (x.submissions.map Submission.rank).sum + 9 * x.queue.waiting.length +
    (x.workers.map Worker.rank).sum

variable {run : Handler σ J} {x y : Executor σ J} {e : Event J}
  {t : Ticket J} {s s' : σ} {r : Reply} {o : Outcome}

/-! ## Starting and submitting -/

theorem quiet_start (workers : Nat) (s : σ) : Quiet s (start (J := J) workers s) where
  mode := rfl
  isOpen := rfl
  calls := rfl
  staffed h := by
    have hlen := congrArg List.length h
    simp only [start, List.length_replicate, List.length_nil] at hlen
    omega
  free i w hw _ := by
    rw [(List.mem_replicate.1 (List.mem_of_getElem? hw)).2]
    rfl
  store := rfl
  waiting := rfl
  allIn n job h := by cases h
  numbered a ha := by cases ha

/-- A job that is submitted to a quiet executor is the only one. -/
theorem Quiet.submit (h : Quiet s x) (job : J) :
    Serving ⟨x.submissions.length, job⟩ s s' r (x.submit job) := by
  have hsubmit : x.submit job =
      { x with submissions := x.submissions ++ [.entering job], queued := x.queued + 1 } := by
    unfold Executor.submit
    rw [h.mode]
  rw [hsubmit]
  refine .entering ⟨⟨h.mode, h.isOpen, h.calls, h.staffed⟩, h.free⟩ h.store h.waiting
    List.getElem?_concat_length ?_ ?_ ?_
  · intro n job' hn
    rcases getElem?_concat_or hn with hn | ⟨hn, -⟩
    · exact absurd hn (h.allIn n job')
    · exact hn
  · intro a ha
    have hlt := h.numbered a ha
    rw [List.length_append, List.length_singleton]
    omega
  · intro a ha
    exact Nat.ne_of_lt (h.numbered a ha)

/-! ## Frames -/

/-- One worker moves, and the exception may move with it. -/
theorem Others.move {busy busy' : Option Nat} {i : Nat} {a : Worker J} (h : Others busy x)
    (hw : y.workers = x.workers.set i a) (hm : y.mode = x.mode)
    (ho : y.queue.isOpen = x.queue.isOpen)
    (hc : y.calls = x.calls) (ha : busy' ≠ some i → a.isFree = true)
    (hbusy : ∀ j, i ≠ j → busy' ≠ some j → busy ≠ some j) : Others busy' y where
  mode := by rw [hm]; exact h.mode
  isOpen := by rw [ho]; exact h.isOpen
  calls := by rw [hc]; exact h.calls
  staffed := by
    rw [hw]
    exact fun hnil => h.staffed ((List.set_eq_nil_iff _ _).1 hnil)
  free j b hb hj := by
    rw [hw] at hb
    by_cases hij : i = j
    · subst hij
      rcases getElem?_set_or hb with ⟨-, hne⟩ | rfl
      · exact absurd rfl hne
      · exact ha hj
    · rw [List.getElem?_set_ne hij] at hb
      exact h.free j b hb (hbusy j hij hj)

theorem Others.free_of_none (h : Others none x) {i : Nat} {a : Worker J}
    (hi : x.workers[i]? = some a) : a.isFree = true := h.free i a hi (Option.some_ne_none i).symm

/-- A free worker that has nothing to take ends what it is at. -/
theorem Others.finish {busy : Option Nat} (h : Others busy x) (i : Nat) :
    Others busy (x.finish i) :=
  h.move rfl rfl rfl rfl (fun _ => rfl) fun _ _ hj => hj

theorem Open.finish {busy : Option Nat} (h : Open t busy x) (i : Nat) : Open t busy (x.finish i) :=
  ⟨h.toOthers.finish i, h.accepted, h.allIn, h.numbered, h.unanswered⟩

theorem Quiet.finish (h : Quiet s x) (i : Nat) : Quiet s (x.finish i) :=
  ⟨h.toOthers.finish i, h.store, h.waiting, h.allIn, h.numbered⟩

/-! ## Who moves -/

theorem step_worker {i : Nat} {a : Worker J} (hi : x.workers[i]? = some a) :
    x.step run (.worker i) = x.moveWorker run i a := by
  simp only [step, hi, Option.bind_eq_bind, Option.bind_some]

/-- A step that the executor takes on its own is one of a submission that is on its
way, or one of a worker. -/
theorem internal_cases (he : e.isInternal = true) (h : x.step run e = some y) :
    (∃ n job, e = .push n ∧ x.submissions[n]? = some (.entering job)) ∨
      ∃ i a, e = .worker i ∧ x.workers[i]? = some a := by
  cases e with
  | push n =>
    simp only [step, push] at h
    split at h
    · next job hn => exact .inl ⟨n, job, rfl, hn⟩
    · cases h
  | worker i =>
    cases hi : x.workers[i]? with
    | none => simp only [step, hi] at h; cases h
    | some a => exact .inr ⟨i, a, rfl, hi⟩
  | _ => cases he

/-- Once all submissions are in, only workers move. -/
theorem AllIn.worker (hx : x.AllIn) (he : e.isInternal = true) (h : x.step run e = some y) :
    ∃ i a, e = .worker i ∧ x.workers[i]? = some a := by
  rcases internal_cases he h with ⟨n, job, -, hn⟩ | hworker
  · exact absurd hn (hx n job)
  · exact hworker

/-- With no job waiting, all that a free worker can do is to say that it is done. -/
theorem finish_of_free {i : Nat} {a : Worker J} (hx : Undisturbed x) (hq : x.queue.waiting = [])
    (hi : x.workers[i]? = some a) (ha : a.isFree = true) (h : x.step run (.worker i) = some y) :
    y = x.finish i := by
  rw [step_worker hi] at h
  cases a with
  | idle =>
    simp only [moveWorker, AdmissionQueue.pop, hq, if_pos hx.isOpen] at h
    cases h
  | replied t => cases h; rfl
  | _ => cases ha

/-- With one job waiting, a free worker takes it or says that it is done. -/
theorem take_or_finish_of_free {i : Nat} {a : Worker J} (hq : x.queue.waiting = [t])
    (hi : x.workers[i]? = some a) (ha : a.isFree = true) (h : x.step run (.worker i) = some y) :
    y = x.finish i ∨
    y = { x.setWorker i (.arrived t) with queue := { x.queue with waiting := [] } } := by
  rw [step_worker hi] at h
  cases a with
  | idle =>
    simp only [moveWorker, AdmissionQueue.pop, hq, Option.some.injEq] at h
    exact .inr h.symm
  | replied t => cases h; exact .inl rfl
  | _ => cases ha

/-! ## Steps -/

/-- On its own, a quiet executor does nothing that anyone could see. -/
theorem quiet_step (h : x.step run e = some y) (he : e.isInternal = true) (hx : Quiet s x) :
    Quiet s y ∧ y.submissions = x.submissions ∧ y.replies = x.replies := by
  obtain ⟨i, a, rfl, hi⟩ := hx.allIn.worker he h
  have hy := finish_of_free hx.toUndisturbed hx.waiting hi (hx.free_of_none hi) h
  subst hy
  exact ⟨hx.finish i, rfl, rfl⟩

/-- The worker with the job takes it one step further, or ends the work on it. -/
theorem carried_step {i : Nat} {a : Worker J} (hx : Undisturbed x) (hi : x.workers[i]? = some a)
    (ha : a.Carries t) (hrun : run t.job x.store = some (o, s'))
    (h : x.step run (.worker i) = some y) :
    (∃ b : Worker J, b.Carries t ∧ y.workers = x.workers.set i b ∧ y.store = x.store ∧
      y.mode = x.mode ∧
      y.queue = x.queue ∧ y.calls = x.calls ∧ y.submissions = x.submissions ∧
      y.replies = x.replies) ∨
    y = { x.setWorker i (.handled t o.reply) with store := s' } := by
  rw [step_worker hi] at h
  cases a with
  | arrived t' =>
    cases ha
    cases h
    exact .inl ⟨.listening t x.resumptions, rfl, rfl, rfl, rfl, rfl, rfl, rfl, rfl⟩
  | listening t' heard =>
    cases ha
    simp only [moveWorker, lookAtMode, hx.mode] at h
    cases h
    exact .inl ⟨.admitted t, rfl, rfl, rfl, rfl, rfl, rfl, rfl, rfl⟩
  | admitted t' =>
    cases ha
    cases h
    exact .inl ⟨.running t, rfl, rfl, rfl, rfl, rfl, rfl, rfl, rfl⟩
  | running t' =>
    cases ha
    simp only [moveWorker, hrun] at h
    cases h
    exact .inr rfl
  | _ => cases ha

/-- The sender of the reply leaves a quiet executor behind, and the reply can be read. -/
theorem Open.answer {i : Nat} (h : Open t (some i) x) (hs : x.store = s)
    (hq : x.queue.waiting = []) : Quiet s (x.sendReply i (.replied t) t.number r) ∧
      (x.sendReply i (.replied t) t.number r).reply? t.number = some r := by
  have haccepted := h.accepted
  unfold Accepted at haccepted
  refine ⟨⟨h.toOthers.move rfl rfl rfl rfl (fun _ => rfl) ?_, hs, hq, h.allIn, ?_⟩, ?_⟩
  · intro j hij _ hj
    exact hij (Option.some.inj hj)
  · intro a ha
    rcases List.mem_append.1 ha with ha | ha
    · exact h.numbered a ha
    · rw [List.mem_singleton.1 ha]
      exact (List.getElem?_eq_some_iff.1 haccepted).1
  · have hnone : x.replies.lookup t.number = none := by
      rw [List.lookup_eq_none_iff]
      intro a ha
      exact bne_iff_ne.2 (h.unanswered a ha).symm
    unfold reply?
    simp only [sendReply, setWorker, haccepted, List.lookup_append, hnone, Option.none_or,
      List.lookup_cons, beq_self_eq_true]

/-- A job that is on its way gets into the queue; meanwhile no worker has anything to do. -/
theorem serving_of_entering (h : x.step run e = some y) (he : e.isInternal = true)
    (ho : Others none x) (hs : x.store = s) (hq : x.queue.waiting = [])
    (hin : x.submissions[t.number]? = some (.entering t.job))
    (hlast : ∀ n job, x.submissions[n]? = some (.entering job) → n = t.number)
    (hnum : ∀ a ∈ x.replies, a.1 < x.submissions.length) (hopen : ∀ a ∈ x.replies, a.1 ≠ t.number) :
    Serving t s s' r y := by
  rcases internal_cases he h with ⟨n, job, rfl, hn⟩ | ⟨i, a, rfl, hi⟩
  · obtain rfl := hlast n job hn
    simp only [step, push, hin, AdmissionQueue.push, if_pos ho.isOpen] at h
    cases h
    have hlt := (List.getElem?_eq_some_iff.1 hin).1
    refine .waiting ⟨⟨⟨ho.mode, ho.isOpen, ho.calls, ho.staffed⟩, ho.free⟩, ?_, ?_, ?_, hopen⟩ hs ?_
    · exact List.getElem?_set_self hlt
    · intro n job hn
      rcases getElem?_set_or hn with ⟨hn, hne⟩ | hn
      · exact hne (hlast n job hn).symm
      · cases hn
    · intro a ha
      rw [List.length_set]
      exact hnum a ha
    · simp only [hq, List.nil_append]
  · have hy := finish_of_free ho.toUndisturbed hq hi (ho.free_of_none hi) h
    subst hy
    exact .entering (ho.finish i) hs hq hin hlast hnum hopen

/-- A worker takes the job from the queue. -/
theorem serving_of_waiting (h : x.step run e = some y) (he : e.isInternal = true)
    (ho : Open t none x) (hs : x.store = s) (hq : x.queue.waiting = [t]) : Serving t s s' r y := by
  obtain ⟨i, a, rfl, hi⟩ := ho.allIn.worker he h
  rcases take_or_finish_of_free hq hi (ho.free_of_none hi) h with rfl | rfl
  · exact .waiting (ho.finish i) hs hq
  · have hlt := (List.getElem?_eq_some_iff.1 hi).1
    have hothers : Others (some i)
        { x.setWorker i (.arrived t) with queue := { x.queue with waiting := [] } } :=
      ho.toOthers.move rfl rfl rfl rfl (absurd rfl) fun j _ _ => (Option.some_ne_none j).symm
    exact .carried i (.arrived t) ⟨hothers, ho.accepted, ho.allIn, ho.numbered, ho.unanswered⟩
      hs rfl (List.getElem?_set_self hlt) rfl

/-- The worker with the job goes on; the others have nothing to do. -/
theorem serving_of_carried {j : Nat} {b : Worker J} (h : x.step run e = some y)
    (he : e.isInternal = true) (hrun : run t.job s = some (o, s')) (ho : Open t (some j) x)
    (hs : x.store = s) (hq : x.queue.waiting = []) (hj : x.workers[j]? = some b)
    (hb : b.Carries t) : Serving t s s' o.reply y := by
  obtain ⟨i, a, rfl, hi⟩ := ho.allIn.worker he h
  by_cases hij : i = j
  · subst hij
    have hlt := (List.getElem?_eq_some_iff.1 hj).1
    rw [← hs] at hrun
    rcases carried_step ho.toUndisturbed hj hb hrun h with
      ⟨c, hc, hw, hstore, hm, hqueue, hcalls, hsub, hrep⟩ | rfl
    · have hothers := ho.toOthers.move hw hm (by rw [hqueue]) hcalls (absurd rfl) fun _ _ hk => hk
      refine .carried i c ⟨hothers, ?_, ?_, ?_, ?_⟩ (hstore.trans hs)
        (by rw [hqueue]; exact hq) ?_ hc
      · unfold Accepted
        rw [hsub]
        exact ho.accepted
      · unfold AllIn
        rw [hsub]
        exact ho.allIn
      · rw [hsub, hrep]
        exact ho.numbered
      · rw [hrep]
        exact ho.unanswered
      · rw [hw]
        exact List.getElem?_set_self hlt
    · have hothers : Others (some i) { x.setWorker i (.handled t o.reply) with store := s' } :=
        ho.toOthers.move rfl rfl rfl rfl (absurd rfl) fun _ _ hk => hk
      exact .handled i ⟨hothers, ho.accepted, ho.allIn, ho.numbered, ho.unanswered⟩ rfl hq
        (List.getElem?_set_self hlt)
  · have hne : some j ≠ some i := fun heq => hij (Option.some.inj heq).symm
    have hy := finish_of_free ho.toUndisturbed hq hi (ho.free i a hi hne) h
    subst hy
    exact .carried j b (ho.finish i) hs hq ((List.getElem?_set_ne hij).trans hj) hb

/-- The worker with the reply sends it; the others have nothing to do. -/
theorem serving_of_handled {j : Nat} (h : x.step run e = some y) (he : e.isInternal = true)
    (ho : Open t (some j) x) (hs : x.store = s') (hq : x.queue.waiting = [])
    (hj : x.workers[j]? = some (.handled t r)) : Serving t s s' r y := by
  obtain ⟨i, a, rfl, hi⟩ := ho.allIn.worker he h
  by_cases hij : i = j
  · subst hij
    rw [step_worker hj] at h
    cases h
    obtain ⟨hquiet, hreply⟩ := ho.answer (r := r) hs hq
    exact .served hquiet hreply
  · have hne : some j ≠ some i := fun heq => hij (Option.some.inj heq).symm
    have hy := finish_of_free ho.toUndisturbed hq hi (ho.free i a hi hne) h
    subst hy
    exact .handled j (ho.finish i) hs hq ((List.getElem?_set_ne hij).trans hj)

/-- **A job leads to its reply and to nothing else.** Every step that the executor takes on
its own keeps it serving the same job. -/
theorem serving_step (h : x.step run e = some y) (he : e.isInternal = true)
    (hrun : run t.job s = some (o, s')) (hx : Serving t s s' o.reply x) :
    Serving t s s' o.reply y := by
  cases hx with
  | entering ho hs hq hin hlast hnum hopen =>
    exact serving_of_entering h he ho hs hq hin hlast hnum hopen
  | waiting ho hs hq => exact serving_of_waiting h he ho hs hq
  | carried i a ho hs hq hi ha => exact serving_of_carried h he hrun ho hs hq hi ha
  | handled i ho hs hq hi => exact serving_of_handled h he ho hs hq hi
  | served hx hr =>
    obtain ⟨hy, hsub, hrep⟩ := quiet_step h he hx
    refine .served hy ?_
    unfold reply? at hr ⊢
    rw [hsub, hrep]
    exact hr

/-! ## Replies -/

theorem Open.reply?_eq_none {busy : Option Nat} (h : Open t busy x) : x.reply? t.number = none := by
  have haccepted := h.accepted
  unfold Accepted at haccepted
  unfold reply?
  rw [haccepted]
  rw [List.lookup_eq_none_iff]
  intro a ha
  exact bne_iff_ne.2 (h.unanswered a ha).symm

/-- A reply that can be read is the reply of the job, which is done by then. -/
theorem Serving.of_reply {r' : Reply} (h : Serving t s s' r x) (hr : x.reply? t.number = some r') :
    r' = r ∧ Quiet s' x := by
  cases h with
  | entering _ _ _ hin =>
    unfold reply? at hr
    rw [hin] at hr
    cases hr
  | waiting ho => rw [ho.reply?_eq_none] at hr; cases hr
  | carried i a ho => rw [ho.reply?_eq_none] at hr; cases hr
  | handled i ho => rw [ho.reply?_eq_none] at hr; cases hr
  | served hx hs =>
    rw [hs] at hr
    cases hr
    exact ⟨rfl, hx⟩

/-- **A job never waits for anyone.** Until its reply can be read, the executor can take a
step on its own. -/
theorem Serving.progress (h : Serving t s s' r x) (hrun : run t.job s = some (o, s')) :
    (∃ e : Event J, e.isInternal = true ∧ (x.step run e).isSome = true) ∨
    x.reply? t.number = some r := by
  cases h with
  | entering ho hs hq hin =>
    refine .inl ⟨.push t.number, rfl, ?_⟩
    simp only [step, push, hin, AdmissionQueue.push, if_pos ho.isOpen, Option.isSome_some]
  | waiting ho hs hq =>
    obtain ⟨a, ha⟩ : ∃ a, x.workers[0]? = some a :=
      ⟨_, List.getElem?_eq_getElem (List.length_pos_iff.2 ho.staffed)⟩
    have hfree := ho.free_of_none ha
    refine .inl ⟨.worker 0, rfl, ?_⟩
    simp only [step, ha, Option.bind_eq_bind, Option.bind_some]
    cases a with
    | idle => simp only [moveWorker, AdmissionQueue.pop, hq, Option.isSome_some]
    | replied t' => rfl
    | _ => cases hfree
  | carried i a ho hs hq hi ha =>
    refine .inl ⟨.worker i, rfl, ?_⟩
    simp only [step, hi, Option.bind_eq_bind, Option.bind_some]
    cases a with
    | arrived t' => rfl
    | listening t' heard => rfl
    | admitted t' => rfl
    | running t' =>
      cases ha
      simp only [moveWorker, hs, hrun, Option.isSome_some]
    | _ => cases ha
  | handled i ho hs hq hi =>
    refine .inl ⟨.worker i, rfl, ?_⟩
    simp only [step, hi, Option.bind_eq_bind, Option.bind_some, moveWorker, Option.isSome_some]
  | served hx hr => exact .inr hr

/-! ## Termination -/

theorem Quiet.undisturbed (h : Quiet s x) : Undisturbed x := h.toUndisturbed

theorem Serving.undisturbed (h : Serving t s s' r x) : Undisturbed x := by
  cases h with
  | entering ho => exact ho.toUndisturbed
  | waiting ho => exact ho.toUndisturbed
  | carried _ _ ho => exact ho.toUndisturbed
  | handled _ ho => exact ho.toUndisturbed
  | served hx => exact hx.toUndisturbed

/-- A worker that moves down the ranks, with the queue as it is, leaves fewer steps to be taken. -/
theorem remaining_lt_of_rank {i : Nat} {a b : Worker J} (hi : x.workers[i]? = some a)
    (hw : y.workers = x.workers.set i b) (hs : y.submissions = x.submissions)
    (hq : y.queue.waiting = x.queue.waiting) (hlt : b.rank < a.rank) :
    y.remaining < x.remaining := by
  have hsum := sum_map_set_add Worker.rank hi b
  unfold remaining
  rw [hw, hs, hq]
  omega

/-- **Executors run down.** Undisturbed, every step that an executor takes on its own leaves
fewer to be taken. -/
theorem remaining_lt (h : x.step run e = some y) (he : e.isInternal = true) (hx : Undisturbed x) :
    y.remaining < x.remaining := by
  have htransition := transition_of_step h
  generalize x.work run e = w at htransition
  cases htransition with
  | pushed n job hn =>
    have hsum := sum_map_set_add Submission.rank hn (.accepted job)
    simp only [Submission.rank] at hsum
    simp only [remaining, List.length_append, List.length_singleton]
    omega
  | handedBack n job hn ho => rw [hx.isOpen] at ho; cases ho
  | popped i t rest hw hq =>
    have hsum := sum_map_set_add Worker.rank hw (.arrived t)
    simp only [Worker.rank] at hsum
    simp only [remaining, setWorker, hq, List.length_cons]
    omega
  | left i hw hq ho => rw [hx.isOpen] at ho; cases ho
  | listened i t hw => exact remaining_lt_of_rank hw rfl rfl rfl (by simp [Worker.rank])
  | admitted i t heard hw => exact remaining_lt_of_rank hw rfl rfl rfl (by simp [Worker.rank])
  | refused i t heard hw hm => rw [hx.mode] at hm; cases hm
  | slept i t heard hw hm => rw [hx.mode] at hm; cases hm
  | woke i t heard hw => exact remaining_lt_of_rank hw rfl rfl rfl (by simp [Worker.rank])
  | answered i t hw => exact remaining_lt_of_rank hw rfl rfl rfl (by simp [Worker.rank])
  | began i t hw => exact remaining_lt_of_rank hw rfl rfl rfl (by simp [Worker.rank])
  | ended i t o s hw => exact remaining_lt_of_rank hw rfl rfl rfl (by simp [Worker.rank])
  | replied i t r hw => exact remaining_lt_of_rank hw rfl rfl rfl (by simp [Worker.rank])
  | finished i t hw => exact remaining_lt_of_rank hw rfl rfl rfl (by simp [Worker.rank])
  | _ => cases he

end Executor

end BucketCluster
