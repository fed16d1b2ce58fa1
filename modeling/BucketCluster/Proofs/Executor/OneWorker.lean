import BucketCluster.Proofs.Executor.Conservation
import BucketCluster.Proofs.Executor.Quiescence
import BucketCluster.Proofs.Executor.Waking
import Mathlib.Data.List.Nodup

/-!
# Executors with one worker

A single worker carries one job at a time from the queue to the reply, so that the jobs
stand in line (`InLine`): those that have been started, then those that a shutdown has
turned away, then the one at the gate, then those in the queue.  They are answered in this
order, too, and the line is the order in which they got into the queue.

Whatever happens at the gate in between, a pause, a resume or a shutdown, moves nobody
past anybody else.  What carries the step lemma is that a job is turned away only for
good: once one has been, no other one passes the gate.
-/

namespace BucketCluster

/-! ## The job of the worker -/

namespace Worker

variable {J : Type}

/-- The job that the worker has taken and not begun. -/
def pendingJob? : Worker J → Option Nat
  | arrived t => some t.number
  | listening t _ => some t.number
  | asleep t _ => some t.number
  | refused t => some t.number
  | admitted t => some t.number
  | _ => none

/-- The job that the worker works on. -/
def currentJob? : Worker J → Option Nat
  | running t => some t.number
  | _ => none

/-- The reply that the worker has and has not sent. -/
def unsentReply? : Worker J → Option (Nat × Reply)
  | handled t r => some (t.number, r)
  | _ => none

end Worker

namespace Executor

variable {σ J : Type}

/-- The replies to the work in the log, in its order. -/
def workReplies (log : List (Ticket J × Outcome)) : List (Nat × Reply) :=
  log.map fun w => (w.1.number, w.2.reply)

/-- What those are told who meet a shutdown at the gate. -/
def turnedAway (gone : List Nat) : List (Nat × Reply) := gone.map fun n => (n, .error .shutdown)

/-- All jobs stand in one line, with the worker in the middle; `gone` are those that it has
turned away. -/
structure InLine (log : List (Ticket J × Outcome)) (x : Executor σ J) (a : Worker J)
    (gone : List Nat) : Prop where
  workers : x.workers = [a]
  pushed : x.pushed = x.started ++ gone ++ a.pendingJob?.toList ++ x.queue.waiting.map (·.number)
  started : x.started = log.map (·.1.number) ++ a.currentJob?.toList
  replies : x.replies ++ a.unsentReply?.toList = workReplies log ++ turnedAway gone
  /-- Jobs are turned away by a shutdown, after the last one that has passed. -/
  gone : gone ≠ [] → x.mode = .shutdown ∧ a.isActive = false

variable {run : Handler σ J} {x y : Executor σ J} {e : Event J} {w : Option (Ticket J × Outcome)}
  {log : List (Ticket J × Outcome)} {workers : Nat} {store : σ} {a b : Worker J}
  {gone : List Nat} {i : Nat}

theorem inLine_start (h : workers ≤ 1) (store : σ) :
    InLine [] (start (J := J) workers store) .idle [] where
  workers := by
    have hone : max workers 1 = 1 := by omega
    rw [start, hone]
    rfl
  pushed := rfl
  started := rfl
  replies := rfl
  gone := nofun

/-- The worker that moves is the only one. -/
theorem InLine.worker_eq (hx : InLine log x a gone) (hw : x.workers[i]? = some b) : b = a := by
  rw [hx.workers] at hw
  exact List.mem_singleton.1 (List.mem_of_getElem? hw)

theorem InLine.setWorker (hx : InLine log x a gone) (hw : x.workers[i]? = some b) (c : Worker J) :
    (x.setWorker i c).workers = [c] := by
  have hlt := (List.getElem?_eq_some_iff.1 hw).1
  have hi : i = 0 := by
    rw [hx.workers, List.length_singleton] at hlt
    omega
  rw [Executor.setWorker, hx.workers, hi]
  rfl

/-- Nobody has been turned away while a job may pass. -/
theorem InLine.gone_eq_nil (hx : InLine log x a gone) (h : x.mode ≠ .shutdown ∨ a.isActive = true) :
    gone = [] := by
  by_cases hgone : gone = []
  · exact hgone
  · obtain ⟨hmode, hactive⟩ := hx.gone hgone
    rw [hmode, hactive] at h
    simp at h

/-- The line does not see a step that leaves worker, queue and records alone. -/
theorem InLine.keep (hx : InLine log x a gone) (hworkers : y.workers = x.workers)
    (hpushed : y.pushed = x.pushed) (hstarted : y.started = x.started)
    (hreplies : y.replies = x.replies)
    (hqueue : y.queue.waiting = x.queue.waiting) (hmode : x.mode = .shutdown → y.mode = .shutdown) :
    InLine log y a gone where
  workers := hworkers.trans hx.workers
  pushed := by rw [hpushed, hstarted, hqueue, hx.pushed]
  started := hstarted.trans hx.started
  replies := by rw [hreplies, hx.replies]
  gone hne := ⟨hmode (hx.gone hne).1, (hx.gone hne).2⟩

/-- Nor one in which the worker keeps its job and stays on its side of the gate. -/
theorem InLine.move (hx : InLine log x a gone) (hw : x.workers[i]? = some b) {c : Worker J}
    (hpending : c.pendingJob? = b.pendingJob?) (hcurrent : c.currentJob? = b.currentJob?)
    (hunsent : c.unsentReply? = b.unsentReply?) (hactive : gone ≠ [] → c.isActive = false) :
    InLine log (x.setWorker i c) c gone := by
  have hb := hx.worker_eq hw
  subst hb
  refine ⟨hx.setWorker hw c, ?_, ?_, ?_, fun hne => ⟨(hx.gone hne).1, hactive hne⟩⟩
  · rw [hpending]
    exact hx.pushed
  · rw [hcurrent]
    exact hx.started
  · rw [hunsent]
    exact hx.replies

/-! ## Steps that move the line -/

/-- A job comes to the end of the line. -/
theorem inLine_pushed (hx : InLine log x a gone) (n : Nat) (job : J)
    (submissions : List (Submission J)) : InLine log { x with
      queue := { x.queue with waiting := x.queue.waiting ++ [⟨n, job⟩] }
      submissions := submissions
      pushed := x.pushed ++ [n] } a gone := by
  refine ⟨hx.workers, ?_, hx.started, hx.replies, hx.gone⟩
  show x.pushed ++ [n] = x.started ++ gone ++ a.pendingJob?.toList ++
    (x.queue.waiting ++ [(⟨n, job⟩ : Ticket J)]).map (·.number)
  rw [hx.pushed, List.map_append]
  simp

theorem inLine_popped (hx : InLine log x a gone) {t : Ticket J} {rest : List (Ticket J)}
    (hw : x.workers[i]? = some .idle) (hq : x.queue.waiting = t :: rest) :
    InLine log { x.setWorker i (.arrived t) with queue := { x.queue with waiting := rest } }
      (.arrived t) gone := by
  have ha := hx.worker_eq hw
  subst ha
  refine ⟨hx.setWorker hw _, ?_, hx.started, hx.replies, fun hne => ⟨(hx.gone hne).1, rfl⟩⟩
  have hpushed := hx.pushed
  rw [hq] at hpushed
  show x.pushed = x.started ++ gone ++ [t.number] ++ rest.map (·.number)
  rw [hpushed]
  simp [Worker.pendingJob?]

/-- A job is turned away: all before it have been started or turned away as well. -/
theorem inLine_answered (hx : InLine log x a gone) {t : Ticket J}
    (hw : x.workers[i]? = some (.refused t)) (hm : x.mode = .shutdown) :
    InLine log (x.sendReply i .idle t.number (.error .shutdown)) .idle (gone ++ [t.number]) := by
  have ha := hx.worker_eq hw
  subst ha
  refine ⟨hx.setWorker hw _, ?_, hx.started, ?_, fun _ => ⟨hm, rfl⟩⟩
  · show x.pushed = x.started ++ (gone ++ [t.number]) ++ [] ++ x.queue.waiting.map (·.number)
    rw [hx.pushed]
    simp [Worker.pendingJob?]
  · have hreplies := hx.replies
    show (x.replies ++ [(t.number, .error .shutdown)]) ++ [] =
      workReplies log ++ turnedAway (gone ++ [t.number])
    simp only [Worker.unsentReply?, Option.toList_none, List.append_nil] at hreplies
    rw [hreplies]
    simp [turnedAway]

/-- Work begins on the job that is next in line. -/
theorem inLine_began (hx : InLine log x a gone) {t : Ticket J}
    (hw : x.workers[i]? = some (.admitted t)) :
    InLine log { x.setWorker i (.running t) with started := x.started ++ [t.number] }
      (.running t) gone := by
  have ha := hx.worker_eq hw
  subst ha
  have hgone := hx.gone_eq_nil (.inr rfl)
  subst hgone
  refine ⟨hx.setWorker hw _, ?_, ?_, hx.replies, nofun⟩
  · show x.pushed = (x.started ++ [t.number]) ++ [] ++ [] ++ x.queue.waiting.map (·.number)
    rw [hx.pushed]
    simp [Worker.pendingJob?]
  · show x.started ++ [t.number] = log.map (·.1.number) ++ [t.number]
    rw [hx.started]
    simp [Worker.currentJob?]

theorem inLine_ended (hx : InLine log x a gone) {t : Ticket J} {o : Outcome} {s : σ}
    (hw : x.workers[i]? = some (.running t)) :
    InLine (log ++ [(t, o)]) { x.setWorker i (.handled t o.reply) with store := s }
      (.handled t o.reply) gone := by
  have ha := hx.worker_eq hw
  subst ha
  have hgone := hx.gone_eq_nil (.inr rfl)
  subst hgone
  refine ⟨hx.setWorker hw _, hx.pushed, ?_, ?_, nofun⟩
  · show x.started = (log ++ [(t, o)]).map (·.1.number) ++ []
    rw [hx.started]
    simp [Worker.currentJob?]
  · have hreplies := hx.replies
    show x.replies ++ [(t.number, o.reply)] = workReplies (log ++ [(t, o)]) ++ []
    simp only [Worker.unsentReply?, Option.toList_none, List.append_nil] at hreplies
    rw [hreplies]
    simp [workReplies, turnedAway]

theorem inLine_replied (hx : InLine log x a gone) {t : Ticket J} {r : Reply}
    (hw : x.workers[i]? = some (.handled t r)) :
    InLine log (x.sendReply i (.replied t) t.number r) (.replied t) gone := by
  have ha := hx.worker_eq hw
  subst ha
  have hgone := hx.gone_eq_nil (.inr rfl)
  subst hgone
  refine ⟨hx.setWorker hw _, hx.pushed, hx.started, ?_, nofun⟩
  have hreplies := hx.replies
  show (x.replies ++ [(t.number, r)]) ++ [] = workReplies log ++ turnedAway []
  rw [List.append_nil]
  exact hreplies

/-! ## All steps -/

theorem inLine_step (h : Transition run x e w y) (hrec : Recorded log x)
    (hx : InLine log x a gone) : ∃ b gone', InLine (log ++ w.toList) y b gone' := by
  cases h
  case ended i t o s hw hr => exact ⟨_, _, inLine_ended hx hw⟩
  -- in all other steps no work ends
  all_goals rw [Option.toList_none, List.append_nil]
  case pushed n job hs ho => exact ⟨_, _, inLine_pushed hx n job _⟩
  case popped i t rest hw hq => exact ⟨_, _, inLine_popped hx hw hq⟩
  case answered i t hw => exact ⟨_, _, inLine_answered hx hw (hrec.workers i _ hw).2⟩
  case began i t hw => exact ⟨_, _, inLine_began hx hw⟩
  case replied i t r hw => exact ⟨_, _, inLine_replied hx hw⟩
  case admitted i t heard hw hm =>
    have hgone := hx.gone_eq_nil (.inl (by rw [hm]; decide))
    exact ⟨_, _,
      (hx.move (c := .admitted t) hw rfl rfl rfl (absurd hgone)).keep rfl rfl rfl rfl rfl id⟩
  case refused i t heard hw hm =>
    exact ⟨_, _,
      (hx.move (c := .refused t) hw rfl rfl rfl fun _ => rfl).keep rfl rfl rfl rfl rfl id⟩
  case finished i t hw =>
    exact ⟨_, _, (hx.move (c := .idle) hw rfl rfl rfl fun _ => rfl).keep rfl rfl rfl rfl rfl id⟩
  case left i hw hq ho => exact ⟨_, _, hx.move hw rfl rfl rfl fun _ => rfl⟩
  case listened i t hw => exact ⟨_, _, hx.move hw rfl rfl rfl fun _ => rfl⟩
  case slept i t heard hw hm => exact ⟨_, _, hx.move hw rfl rfl rfl fun _ => rfl⟩
  case woke i t heard hw hc => exact ⟨_, _, hx.move hw rfl rfl rfl fun _ => rfl⟩
  case pauses hm => exact ⟨_, _, hx.keep rfl rfl rfl rfl rfl fun h => absurd h (by rw [hm]; decide)⟩
  case resumes hm =>
    exact ⟨_, _, hx.keep rfl rfl rfl rfl rfl fun h => absurd h (by rw [hm]; decide)⟩
  case shutsDown hm => exact ⟨_, _, hx.keep rfl rfl rfl rfl rfl fun _ => rfl⟩
  all_goals exact ⟨_, _, hx.keep rfl rfl rfl rfl rfl id⟩

/-- With one worker all jobs stand in line, whatever has happened. -/
theorem Execution.inLine (h : Execution run workers store log x) (hone : workers ≤ 1) :
    ∃ a gone, InLine log x a gone := by
  induction h with
  | start => exact ⟨_, _, inLine_start hone _⟩
  | step hexec hs ih =>
    obtain ⟨a, gone, hx⟩ := ih
    exact inLine_step (transition_of_step hs) hexec.invariant.recorded hx

/-! ## The accepted jobs -/

/-- The accepted job with the number. -/
def ticket? (x : Executor σ J) (n : Nat) : Option (Ticket J) :=
  match x.submissions[n]? with
  | some (.accepted job) => some ⟨n, job⟩
  | _ => none

/-- The accepted jobs in the order in which they got into the queue. -/
def tickets (x : Executor σ J) : List (Ticket J) := x.pushed.filterMap x.ticket?

theorem ticket?_eq_some {n : Nat} {t : Ticket J} :
    x.ticket? n = some t ↔ t.number = n ∧ x.Accepted t := by
  unfold ticket? Accepted
  constructor
  · intro h
    split at h
    · next job hs =>
      cases h
      exact ⟨rfl, hs⟩
    · cases h
  · rintro ⟨rfl, hs⟩
    rw [hs]

theorem ticket?_of_isAccepted {n : Nat} (h : x.isAccepted n = true) :
    ∃ t, x.ticket? n = some t ∧ t.number = n := by
  unfold isAccepted at h
  unfold ticket?
  cases hs : x.submissions[n]? with
  | none =>
    rw [hs] at h
    cases h
  | some s =>
    rw [hs] at h
    cases s with
    | accepted job => exact ⟨_, rfl, rfl⟩
    | entering job => cases h
    | rejected job => cases h

/-- The accepted jobs have got into the queue, each of them once, and no others. -/
def PushedOnce (x : Executor σ J) : Prop := ∀ n, x.pushed.count n = (x.isAccepted n).toNat

theorem pushedOnce_step (h : Transition run x e w y) (hx : PushedOnce x) : PushedOnce y := by
  intro n
  have hn := hx n
  cases h with
  | counted job hm =>
    show _ = ((x.submissions ++ [.entering job])[n]?.any Submission.isAccepted).toNat
    rwa [isAccepted_append x rfl n]
  | turnedAway job hm =>
    show _ = ((x.submissions ++ [.rejected job])[n]?.any Submission.isAccepted).toNat
    rwa [isAccepted_append x rfl n]
  | pushed m job hs ho =>
    show (x.pushed ++ [m]).count n =
      ((x.submissions.set m (.accepted job))[n]?.any Submission.isAccepted).toNat
    rw [isAccepted_set x hs, List.count_append, List.count_singleton, hn]
    simp [Submission.isAccepted]
  | handedBack m job hs ho =>
    show _ = ((x.submissions.set m (.rejected job))[n]?.any Submission.isAccepted).toNat
    rw [isAccepted_set x hs]
    simpa [Submission.isAccepted] using hn
  | _ => exact hn

theorem Execution.pushedOnce (h : Execution run workers store log x) : PushedOnce x := by
  induction h with
  | start =>
    intro n
    rfl
  | step _ hs ih => exact pushedOnce_step (transition_of_step hs) ih

theorem PushedOnce.nodup (hx : PushedOnce x) : x.pushed.Nodup := by
  refine List.nodup_iff_count_le_one.2 fun n => ?_
  rw [hx n]
  exact Bool.toNat_le _

theorem PushedOnce.mem_pushed (hx : PushedOnce x) {n : Nat} :
    n ∈ x.pushed ↔ x.isAccepted n = true := by
  rw [← List.count_pos_iff, hx n]
  cases x.isAccepted n <;> simp

theorem PushedOnce.mem_tickets (hx : PushedOnce x) {t : Ticket J} :
    t ∈ x.tickets ↔ x.Accepted t := by
  rw [tickets, List.mem_filterMap]
  constructor
  · rintro ⟨n, -, hn⟩
    exact (ticket?_eq_some.1 hn).2
  · intro ht
    exact ⟨t.number, hx.mem_pushed.2 ht.isAccepted, ticket?_eq_some.2 ⟨rfl, ht⟩⟩

theorem PushedOnce.tickets_number (hx : PushedOnce x) : x.tickets.map (·.number) = x.pushed := by
  have hnumber : ∀ n ∈ x.pushed, (x.ticket? n).map (·.number) = some n := by
    intro n hn
    obtain ⟨t, ht, hnum⟩ := ticket?_of_isAccepted (hx.mem_pushed.1 hn)
    rw [ht, Option.map_some, hnum]
  rw [tickets, List.map_filterMap, List.filterMap_congr hnumber, List.filterMap_some]

/-- The jobs that have been worked on are the first ones. -/
theorem InLine.take_tickets (hx : InLine log x a gone) (hrec : Recorded log x) :
    x.tickets.take log.length = log.map (·.1) := by
  have hlogged : (log.map (·.1.number)).filterMap x.ticket? = log.map (·.1) := by
    rw [List.filterMap_map, ← List.filterMap_eq_map]
    refine List.filterMap_congr fun r hr => ?_
    exact ticket?_eq_some.2 ⟨rfl, (hrec.logged r hr).1⟩
  rw [tickets, hx.pushed, hx.started]
  simp only [List.append_assoc, List.filterMap_append, hlogged]
  rw [List.take_left' (List.length_map _)]

/-! ## What the line says -/

/-- Jobs are begun in the order in which they got into the queue. -/
theorem InLine.started_prefix (hx : InLine log x a gone) : x.started <+: x.pushed := by
  rw [hx.pushed]
  simp only [List.append_assoc]
  exact List.prefix_append _ _

/-- At most one job is being worked on. -/
theorem InLine.length_started (hx : InLine log x a gone) :
    log.length ≤ x.started.length ∧ x.started.length ≤ log.length + 1 := by
  rw [hx.started, List.length_append, List.length_map]
  cases a.currentJob? <;> simp

theorem InLine.started_eq (hx : InLine log x a gone) :
    x.started = (workReplies log).map (·.1) ++ a.currentJob?.toList := by
  rw [hx.started, workReplies, List.map_map]
  rfl

/-- A job begins when all that have begun before it are answered. -/
theorem InLine.answered_before (hx : InLine log x a gone) {n : Nat} (hn : n ∈ x.started.dropLast) :
    n ∈ x.replies.map (·.1) := by
  have hreplies := hx.replies
  rw [hx.started_eq] at hn
  by_cases hunsent : a.unsentReply? = none
  · -- all work that has ended is answered
    have hmem : n ∈ (workReplies log).map (·.1) := by
      cases hcurrent : a.currentJob? with
      | none =>
        rw [hcurrent, Option.toList_none, List.append_nil] at hn
        exact List.dropLast_subset _ hn
      | some m =>
        rw [hcurrent, Option.toList_some, List.dropLast_concat] at hn
        exact hn
    rw [hunsent, Option.toList_none, List.append_nil] at hreplies
    rw [hreplies, List.map_append]
    exact List.mem_append_left _ hmem
  · -- all but the last
    cases a with
    | handled t r =>
      have hgone := hx.gone_eq_nil (.inr rfl)
      subst hgone
      have hlog : workReplies log = x.replies ++ [(t.number, r)] := by
        simpa [Worker.unsentReply?, turnedAway] using hreplies.symm
      rw [hlog] at hn
      simpa [Worker.currentJob?] using hn
    | _ => exact absurd rfl hunsent

theorem InLine.drop_pushed (hx : InLine log x a gone) : x.pushed.drop log.length =
    a.currentJob?.toList ++ gone ++ a.pendingJob?.toList ++ x.queue.waiting.map (·.number) := by
  rw [hx.pushed, hx.started]
  simp only [List.append_assoc]
  exact List.drop_left' (List.length_map _)

/-- Replies are sent in the order of the line: to the work that has ended, and then to those
that a shutdown turns away. -/
theorem InLine.replies_prefix (hx : InLine log x a gone) :
    x.replies <+: workReplies log ++ turnedAway (x.pushed.drop log.length) := by
  have hsent : x.replies <+: workReplies log ++ turnedAway gone := ⟨_, hx.replies⟩
  refine hsent.trans ((List.prefix_append_right_inj _).2 ?_)
  by_cases hgone : gone = []
  · rw [hgone]
    exact List.nil_prefix
  · have hcurrent : a.currentJob? = none := by
      cases a with
      | running t => exact absurd (hx.gone hgone).2 (by simp [Worker.isActive])
      | _ => rfl
    rw [hx.drop_pushed, hcurrent, Option.toList_none, List.nil_append, List.append_assoc,
      turnedAway, turnedAway, List.map_append]
    exact List.prefix_append _ _

/-- When the worker has left, all have been answered, and work has ended on all that have
been begun. -/
theorem InLine.left (hx : InLine log x .stopped gone) (hclosing : Closing x) :
    log.length = x.started.length ∧
    x.replies = workReplies log ++ turnedAway (x.pushed.drop log.length) := by
  have hqueue := (hclosing.stopped (by rw [hx.workers]; exact List.mem_singleton_self _)).1
  constructor
  · rw [hx.started]
    simp [Worker.currentJob?]
  · have hreplies := hx.replies
    rw [hx.drop_pushed, hqueue]
    simpa [Worker.currentJob?, Worker.pendingJob?, Worker.unsentReply?] using hreplies

/-! ## Completed shutdowns -/

/-- The call that has shut the executor down has returned; calls that come after it
return at once. -/
def ShutDown (run : Handler σ J) (x : Executor σ J) : Prop :=
  ∃ (u : Executor σ J) (i : Nat), u.calls[i]? = some .shutdownEntered ∧
    Path run (fun _ _ => True) u x ∧ x.calls[i]? = some .shutdownReturned

theorem path_after (es : List (Event J)) (h : x.after run es = some y) :
    Path run (fun _ _ => True) x y := by
  induction es generalizing x with
  | nil =>
    cases h
    exact .refl
  | cons e es ih =>
    obtain ⟨z, hz, h⟩ := Option.bind_eq_some_iff.1 h
    exact (Path.refl.step hz trivial).trans (ih h)

/-- Workers that have left do nothing any more. -/
theorem workers_of_stopped (h : x.step run e = some y)
    (hx : x.workers.all Worker.isStopped = true) : y.workers = x.workers := by
  rcases workers_of_stir (.step h) with hsame | ⟨j, b, rfl, -⟩
  · exact hsame
  · obtain ⟨a, ha, hmove⟩ := Option.bind_eq_some_iff.1 h
    have hstopped := List.all_eq_true.1 hx a (List.mem_of_getElem? ha)
    cases a with
    | stopped => cases hmove
    | _ => cases hstopped

/-- The call goes on until it waits for the workers, and waits until all have left. -/
theorem closes_step (h : x.step run e = some y) {c : Call} (hc : x.calls[i]? = some c)
    (hcloses : closes c = true) :
    (∃ d, y.calls[i]? = some d ∧ closes d = true) ∨ y.workers.all Worker.isStopped = true := by
  by_cases he : e = .call i
  · subst he
    obtain ⟨c', hc', hmove⟩ := Option.bind_eq_some_iff.1 h
    rw [hc] at hc'
    cases hc'
    cases c with
    | shutdownEntered =>
      cases hmove
      exact .inl ⟨_, getElem?_setCall hc _, rfl⟩
    | shutdownClosed =>
      cases hmove
      exact .inl ⟨_, getElem?_setCall hc _, rfl⟩
    | shutdownJoining =>
      rw [moveCall] at hmove
      split at hmove
      · next hall =>
        cases hmove
        exact .inr hall
      · cases hmove
    | _ => cases hcloses
  · exact .inl ⟨c, call_stays (.step h) he hc, hcloses⟩

theorem closes_path (h : Path run (fun _ _ => True) x y) {c : Call} (hc : x.calls[i]? = some c)
    (hcloses : closes c = true) :
    (∃ d, y.calls[i]? = some d ∧ closes d = true) ∨ y.workers.all Worker.isStopped = true := by
  induction h with
  | refl => exact .inl ⟨c, hc, hcloses⟩
  | step _ hs _ ih =>
    rcases ih with ⟨d, hd, hdcloses⟩ | hstopped
    · exact closes_step hs hd hdcloses
    · rw [workers_of_stopped hs hstopped]
      exact .inr hstopped

theorem ShutDown.stopped (h : ShutDown run x) : x.workers.all Worker.isStopped = true := by
  obtain ⟨u, i, hentered, hpath, hreturned⟩ := h
  rcases closes_path hpath hentered rfl with ⟨c, hc, hcloses⟩ | hstopped
  · rw [hreturned] at hc
    cases hc
    cases hcloses
  · exact hstopped

end Executor

end BucketCluster
