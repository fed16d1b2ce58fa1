import BucketCluster.Executor.Step

/-!
# Transitions of an executor

`Transition` lists every step that an executor can take, once, with all that the
step asks for and all that it changes; `transition_of_step` says that the list is
complete, so that no later proof looks into `step`.

`Execution` is `Reachable` with a log of the work that has been done: every job
whose work has ended, with its outcome, in the order in which it ended.
-/

namespace BucketCluster.Executor

variable {σ J : Type}

/-! ## Work -/

/-- The work that ends in a step, and how: only a worker that runs a job ends any. -/
def work (run : Handler σ J) (x : Executor σ J) : Event J → Option (Ticket J × Outcome)
  | .worker i =>
    match x.workers[i]? with
    | some (.running t) => (run t.job x.store).map fun r => (t, r.1)
    | _ => none
  | _ => none

/-- The executor after some steps from the start, with the work done on the way. -/
inductive Execution (run : Handler σ J) (workers : Nat) (store : σ) :
    List (Ticket J × Outcome) → Executor σ J → Prop where
  | start : Execution run workers store [] (Executor.start workers store)
  | step {log : List (Ticket J × Outcome)} {x y : Executor σ J} {e : Event J} :
      Execution run workers store log x → x.step run e = some y →
        Execution run workers store (log ++ (x.work run e).toList) y

/-- The executor after the given steps, if all of them can be taken. -/
def after (run : Handler σ J) (x : Executor σ J) : List (Event J) → Option (Executor σ J)
  | [] => some x
  | e :: es => x.step run e >>= fun y => y.after run es

/-! ## All steps -/

/-- The step `e` from `x`: the work that ends in it, and the executor after it. -/
inductive Transition (run : Handler σ J) (x : Executor σ J) :
    Event J → Option (Ticket J × Outcome) → Executor σ J → Prop where
  | counted (job : J) (hm : x.mode ≠ .shutdown) :
      Transition run x (.submit job) none
        { x with submissions := x.submissions ++ [.entering job], queued := x.queued + 1 }
  | turnedAway (job : J) (hm : x.mode = .shutdown) :
      Transition run x (.submit job) none { x with submissions := x.submissions ++ [.rejected job] }
  | pushed (n : Nat) (job : J) (hs : x.submissions[n]? = some (.entering job))
      (ho : x.queue.isOpen = true) :
      Transition run x (.push n) none
        { x with
          queue := { x.queue with waiting := x.queue.waiting ++ [⟨n, job⟩] }
          submissions := x.submissions.set n (.accepted job)
          pushed := x.pushed ++ [n] }
  | handedBack (n : Nat) (job : J) (hs : x.submissions[n]? = some (.entering job))
      (ho : x.queue.isOpen = false) :
      Transition run x (.push n) none
        { x with submissions := x.submissions.set n (.rejected job), queued := x.queued - 1 }
  | popped (i : Nat) (t : Ticket J) (rest : List (Ticket J)) (hw : x.workers[i]? = some .idle)
      (hq : x.queue.waiting = t :: rest) :
      Transition run x (.worker i) none
        { x.setWorker i (.arrived t) with queue := { x.queue with waiting := rest } }
  | left (i : Nat) (hw : x.workers[i]? = some .idle) (hq : x.queue.waiting = [])
      (ho : x.queue.isOpen = false) :
      Transition run x (.worker i) none (x.setWorker i .stopped)
  | listened (i : Nat) (t : Ticket J) (hw : x.workers[i]? = some (.arrived t)) :
      Transition run x (.worker i) none (x.setWorker i (.listening t x.resumptions))
  | admitted (i : Nat) (t : Ticket J) (heard : Nat) (hw : x.workers[i]? = some (.listening t heard))
      (hm : x.mode = .running) :
      Transition run x (.worker i) none
        { x.setWorker i (.admitted t) with queued := x.queued - 1, active := x.active + 1 }
  | refused (i : Nat) (t : Ticket J) (heard : Nat) (hw : x.workers[i]? = some (.listening t heard))
      (hm : x.mode = .shutdown) :
      Transition run x (.worker i) none { x.setWorker i (.refused t) with queued := x.queued - 1 }
  | slept (i : Nat) (t : Ticket J) (heard : Nat) (hw : x.workers[i]? = some (.listening t heard))
      (hm : x.mode = .paused) :
      Transition run x (.worker i) none (x.setWorker i (.asleep t heard))
  | woke (i : Nat) (t : Ticket J) (heard : Nat) (hw : x.workers[i]? = some (.asleep t heard))
      (hc : heard < x.resumptions) :
      Transition run x (.worker i) none (x.setWorker i (.arrived t))
  | answered (i : Nat) (t : Ticket J) (hw : x.workers[i]? = some (.refused t)) :
      Transition run x (.worker i) none (x.sendReply i .idle t.number (.error .shutdown))
  | began (i : Nat) (t : Ticket J) (hw : x.workers[i]? = some (.admitted t)) :
      Transition run x (.worker i) none
        { x.setWorker i (.running t) with started := x.started ++ [t.number] }
  | ended (i : Nat) (t : Ticket J) (o : Outcome) (s : σ) (hw : x.workers[i]? = some (.running t))
      (hr : run t.job x.store = some (o, s)) :
      Transition run x (.worker i) (some (t, o))
        { x.setWorker i (.handled t o.reply) with store := s }
  | replied (i : Nat) (t : Ticket J) (r : Reply) (hw : x.workers[i]? = some (.handled t r)) :
      Transition run x (.worker i) none (x.sendReply i (.replied t) t.number r)
  | finished (i : Nat) (t : Ticket J) (hw : x.workers[i]? = some (.replied t)) :
      Transition run x (.worker i) none (x.finish i)
  | pauses (hm : x.mode = .running) :
      Transition run x .pause none { x.addCall .pauseEntered with mode := .paused }
  | pausesIdly (hm : x.mode ≠ .running) : Transition run x .pause none (x.addCall .pauseEntered)
  | resumes (hm : x.mode = .paused) :
      Transition run x .resume none { x.addCall .resumeEntered with mode := .running }
  | resumesIdly (hm : x.mode ≠ .paused) : Transition run x .resume none (x.addCall .resumeReturned)
  | shutsDown (hm : x.mode ≠ .shutdown) :
      Transition run x .shutdown none { x.addCall .shutdownEntered with mode := .shutdown }
  | shutsDownIdly (hm : x.mode = .shutdown) :
      Transition run x .shutdown none (x.addCall .shutdownReturned)
  | pauseListened (i : Nat) (hc : x.calls[i]? = some .pauseEntered) :
      Transition run x (.call i) none (x.setCall i (.pauseListening x.idlings))
  | pauseReturned (i heard : Nat) (hc : x.calls[i]? = some (.pauseListening heard))
      (ha : x.active = 0) :
      Transition run x (.call i) none (x.setCall i .pauseReturned)
  | pauseSlept (i heard : Nat) (hc : x.calls[i]? = some (.pauseListening heard))
      (ha : x.active ≠ 0) :
      Transition run x (.call i) none (x.setCall i (.pauseAsleep heard))
  | pauseWoke (i heard : Nat) (hc : x.calls[i]? = some (.pauseAsleep heard))
      (hh : heard < x.idlings) :
      Transition run x (.call i) none (x.setCall i .pauseEntered)
  | resumeNotified (i : Nat) (hc : x.calls[i]? = some .resumeEntered) :
      Transition run x (.call i) none
        { x.setCall i .resumeReturned with resumptions := x.resumptions + 1 }
  | queueClosed (i : Nat) (hc : x.calls[i]? = some .shutdownEntered) :
      Transition run x (.call i) none { x.setCall i .shutdownClosed with queue := x.queue.close }
  | shutdownNotified (i : Nat) (hc : x.calls[i]? = some .shutdownClosed) :
      Transition run x (.call i) none
        { x.setCall i .shutdownJoining with resumptions := x.resumptions + 1 }
  | shutdownReturned (i : Nat) (hc : x.calls[i]? = some .shutdownJoining)
      (hj : x.workers.all Worker.isStopped = true) :
      Transition run x (.call i) none (x.setCall i .shutdownReturned)

variable {run : Handler σ J} {x y : Executor σ J}

theorem transition_of_push {n : Nat} (h : x.push n = some y) :
    Transition run x (.push n) none y := by
  unfold push at h
  split at h
  · next job hs =>
    by_cases ho : x.queue.isOpen = true
    · simp only [AdmissionQueue.push, if_pos ho, Option.some.injEq] at h
      subst h
      exact .pushed n job hs ho
    · simp only [AdmissionQueue.push, if_neg ho, Option.some.injEq] at h
      subst h
      exact .handedBack n job hs (by simpa using ho)
  · cases h

theorem transition_of_moveWorker {i : Nat} {w : Worker J} (hw : x.workers[i]? = some w)
    (h : x.moveWorker run i w = some y) :
    Transition run x (.worker i) (x.work run (.worker i)) y := by
  simp only [work, hw]
  cases w with
  | idle =>
    simp only [moveWorker, AdmissionQueue.pop] at h
    cases hq : x.queue.waiting with
    | cons t rest =>
      rw [hq] at h
      cases h
      exact .popped i t rest hw hq
    | nil =>
      rw [hq] at h
      cases ho : x.queue.isOpen with
      | true => rw [ho] at h; cases h
      | false =>
        rw [ho] at h
        cases h
        exact .left i hw hq ho
  | arrived t => cases h; exact .listened i t hw
  | listening t heard =>
    simp only [moveWorker, lookAtMode] at h
    cases hm : x.mode with
    | running => rw [hm] at h; cases h; exact .admitted i t heard hw hm
    | paused => rw [hm] at h; cases h; exact .slept i t heard hw hm
    | shutdown => rw [hm] at h; cases h; exact .refused i t heard hw hm
  | asleep t heard =>
    simp only [moveWorker] at h
    split at h
    · next hc => cases h; exact .woke i t heard hw hc
    · cases h
  | refused t => cases h; exact .answered i t hw
  | admitted t => cases h; exact .began i t hw
  | running t =>
    simp only [moveWorker] at h
    cases hr : run t.job x.store with
    | none => rw [hr] at h; cases h
    | some r =>
      obtain ⟨o, s⟩ := r
      rw [hr] at h
      cases h
      simp only [hr, Option.map_some]
      exact .ended i t o s hw hr
  | handled t r => cases h; exact .replied i t r hw
  | replied t => cases h; exact .finished i t hw
  | stopped => cases h

theorem transition_of_moveCall {i : Nat} {c : Call} (hc : x.calls[i]? = some c)
    (h : x.moveCall i c = some y) : Transition run x (.call i) none y := by
  cases c with
  | pauseEntered => cases h; exact .pauseListened i hc
  | pauseListening heard =>
    simp only [moveCall] at h
    by_cases ha : x.active = 0
    · rw [if_pos ha] at h; cases h; exact .pauseReturned i heard hc ha
    · rw [if_neg ha] at h; cases h; exact .pauseSlept i heard hc ha
  | pauseAsleep heard =>
    simp only [moveCall] at h
    split at h
    · next hh => cases h; exact .pauseWoke i heard hc hh
    · cases h
  | resumeEntered => cases h; exact .resumeNotified i hc
  | shutdownEntered => cases h; exact .queueClosed i hc
  | shutdownClosed => cases h; exact .shutdownNotified i hc
  | shutdownJoining =>
    simp only [moveCall] at h
    split at h
    · next hj => cases h; exact .shutdownReturned i hc hj
    · cases h
  | pauseReturned => cases h
  | resumeReturned => cases h
  | shutdownReturned => cases h

/-- The list of transitions is complete. -/
theorem transition_of_step {e : Event J} (h : x.step run e = some y) :
    Transition run x e (x.work run e) y := by
  cases e with
  | submit job =>
    simp only [step, submit, Option.some.injEq] at h
    split at h
    · next hm => subst h; exact .turnedAway job hm
    · next hm => subst h; exact .counted job hm
  | push n => exact transition_of_push h
  | worker i =>
    cases hw : x.workers[i]? with
    | none => simp [step, hw] at h
    | some w => exact transition_of_moveWorker hw (by simpa [step, hw] using h)
  | pause =>
    simp only [step, pause, Option.some.injEq] at h
    cases hm : x.mode with
    | running => rw [hm] at h; subst h; exact .pauses hm
    | paused => rw [hm] at h; subst h; exact .pausesIdly (by rw [hm]; decide)
    | shutdown => rw [hm] at h; subst h; exact .pausesIdly (by rw [hm]; decide)
  | resume =>
    simp only [step, resume, Option.some.injEq] at h
    cases hm : x.mode with
    | paused => rw [hm] at h; subst h; exact .resumes hm
    | running => rw [hm] at h; subst h; exact .resumesIdly (by rw [hm]; decide)
    | shutdown => rw [hm] at h; subst h; exact .resumesIdly (by rw [hm]; decide)
  | shutdown =>
    simp only [step, shutdown, Option.some.injEq] at h
    cases hm : x.mode with
    | shutdown => rw [hm] at h; subst h; exact .shutsDownIdly hm
    | running => rw [hm] at h; subst h; exact .shutsDown (by rw [hm]; decide)
    | paused => rw [hm] at h; subst h; exact .shutsDown (by rw [hm]; decide)
  | call i =>
    cases hc : x.calls[i]? with
    | none => simp [step, hc] at h
    | some c => exact transition_of_moveCall hc (by simpa [step, hc] using h)

/-! ## Refused pushes -/

theorem isOpen_of_step {e : Event J} (h : x.step run e = some y) (hx : x.queue.isOpen = false) :
    y.queue.isOpen = false := by
  have htransition := transition_of_step h
  generalize x.work run e = w at htransition
  cases htransition with
  | pushed n job hs ho => cases hx.symm.trans ho
  | queueClosed => rfl
  | _ => exact hx

/-- **A push that is refused stays refused.**  Whatever happens after the queue has been
closed, a job that is counted at the gate by then is handed back, and its count taken back. -/
theorem push_of_closed {es : List (Event J)} (h : x.after run es = some y)
    (hx : x.queue.isOpen = false) {n : Nat} {job : J}
    (hs : y.submissions[n]? = some (.entering job)) :
    y.push n = some
      { y with submissions := y.submissions.set n (.rejected job), queued := y.queued - 1 } := by
  induction es generalizing x with
  | nil =>
    cases h
    simp only [push, hs, AdmissionQueue.push, hx, Bool.false_eq_true, if_false]
  | cons e es ih =>
    obtain ⟨z, hz, h⟩ := Option.bind_eq_some_iff.1 h
    exact ih h (isOpen_of_step hz hx)

/-! ## Executions -/

theorem Reachable.after {workers : Nat} {store : σ} (hx : Reachable run workers store x)
    (es : List (Event J)) (h : x.after run es = some y) : Reachable run workers store y := by
  induction es generalizing x with
  | nil => cases h; exact hx
  | cons e es ih =>
    obtain ⟨z, hz, h⟩ := Option.bind_eq_some_iff.1 h
    exact ih (hx.step hz) h

/-- Every reachable executor has an execution that leads to it. -/
theorem exists_execution {workers : Nat} {store : σ} (h : Reachable run workers store x) :
    ∃ log, Execution run workers store log x := by
  induction h with
  | start => exact ⟨[], .start⟩
  | step _ hs ih =>
    obtain ⟨log, h⟩ := ih
    exact ⟨_, h.step hs⟩

end BucketCluster.Executor
