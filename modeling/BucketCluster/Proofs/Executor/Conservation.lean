import BucketCluster.Proofs.Executor.Records

/-!
# No job is lost and none is done twice

`accounted_of_execution` puts the invariants of all executions together: every
accepted job is in exactly one stage, work on it begins and ends at most once, its
reply is the outcome of that work or tells of a shutdown, and both counters of the
gate say what they are meant to say.  When all workers have left, every accepted
job has its reply.
-/

namespace BucketCluster.Executor

variable {σ J : Type}

/-! ## The work on the store -/

/-- The work in the log, done from left to right, leads from one store to the other. -/
inductive Replays (run : Handler σ J) (store : σ) : List (Ticket J × Outcome) → σ → Prop where
  | nil : Replays run store [] store
  | snoc {log : List (Ticket J × Outcome)} {s s' : σ} {t : Ticket J} {o : Outcome} :
      Replays run store log s → run t.job s = some (o, s') → Replays run store (log ++ [(t, o)]) s'

variable {run : Handler σ J} {x y : Executor σ J} {e : Event J} {w : Option (Ticket J × Outcome)}
  {log : List (Ticket J × Outcome)} {workers : Nat} {store : σ}

/-- Only the end of work changes the store. -/
theorem store_of_transition (h : Transition run x e none y) : y.store = x.store := by
  cases h <;> rfl

theorem replays_step (h : Transition run x e w y) (hx : Replays run store log x.store) :
    Replays run store (log ++ w.toList) y.store := by
  cases w with
  | none =>
    rw [Option.toList_none, List.append_nil, store_of_transition h]
    exact hx
  | some r =>
    cases h with
    | ended i t o s hw hr => exact hx.snoc hr

theorem Execution.replays (h : Execution run workers store log x) :
    Replays run store log x.store := by
  induction h with
  | start => exact .nil
  | step _ hs ih => exact replays_step (transition_of_step hs) ih

/-! ## All invariants -/

/-- The invariants of an executor that was started with a number of workers. -/
structure Invariant (workers : Nat) (log : List (Ticket J × Outcome)) (x : Executor σ J) :
    Prop where
  balanced : Balanced x
  staged : Staged x
  recorded : Recorded log x
  closing : Closing x
  size : x.workers.length = max workers 1

theorem length_workers_step (h : Transition run x e w y) : y.workers.length = x.workers.length := by
  cases h <;> first | rfl | exact List.length_set

theorem Execution.invariant (h : Execution run workers store log x) : Invariant workers log x := by
  induction h with
  | start =>
    exact ⟨balanced_start _ _, staged_start _ _, recorded_start _ _, closing_start _ _,
      List.length_replicate⟩
  | step _ hs ih =>
    have ht := transition_of_step hs
    exact ⟨balanced_step ht ih.balanced, staged_step ht ih.staged,
      recorded_step ht ih.staged ih.recorded,
      closing_step ht ih.closing, (length_workers_step ht).trans ih.size⟩

/-! ## Replies -/

/-- What the submitter of an accepted job hears is the reply that was sent. -/
theorem reply?_eq_some_iff (hs : Staged x) {n : Nat} (hn : x.isAccepted n = true) (r : Reply) :
    x.reply? n = some r ↔ (n, r) ∈ x.replies := by
  have hlookup : x.reply? n = x.replies.lookup n := by
    unfold isAccepted at hn
    unfold reply?
    cases hsub : x.submissions[n]? with
    | none => rw [hsub] at hn; cases hn
    | some s =>
      rw [hsub] at hn
      cases s with
      | accepted job => rfl
      | entering job => cases hn
      | rejected job => cases hn
  have hle : x.replies.countP (·.1 == n) ≤ 1 := by
    have := hs n
    have := Bool.toNat_le (x.isAccepted n)
    unfold timesReplied at *
    omega
  rw [hlookup]
  generalize x.replies = rs at hle
  induction rs with
  | nil => simp
  | cons p rs ih =>
    obtain ⟨m, r'⟩ := p
    rw [List.countP_cons] at hle
    by_cases hmn : m = n
    · subst hmn
      have hrest : ∀ r, (m, r) ∉ rs := by
        intro r hr
        have : 0 < rs.countP (·.1 == m) := List.countP_pos_iff.2 ⟨_, hr, by simp⟩
        rw [if_pos (by simp)] at hle
        omega
      simp [hrest, eq_comm]
    · have hnm : (n == m) = false := by simpa using fun h => hmn h.symm
      rw [if_neg (by simpa using hmn)] at hle
      rw [List.lookup_cons, hnm]
      exact (ih hle).trans (by simp [Ne.symm hmn])

/-! ## When all workers have left -/

theorem countP_eq_zero_of_stopped (h : ∀ a ∈ x.workers, a.isStopped = true) {p : Worker J → Bool}
    (hp : p .stopped = false) : x.workers.countP p = 0 := by
  apply List.countP_eq_zero.2
  intro a ha
  have := h a ha
  cases a with
  | stopped => simp [hp]
  | _ => cases this

theorem stopped_mem (hx : Invariant workers log x) (h : ∀ a ∈ x.workers, a.isStopped = true) :
    .stopped ∈ x.workers := by
  have hsize := hx.size
  obtain ⟨a, ha⟩ := List.exists_mem_of_length_pos (l := x.workers) (by omega)
  have := h a ha
  cases a with
  | stopped => exact ha
  | _ => cases this

/-! ## The account -/

/-- All that can be said of the jobs of an executor after an execution. -/
structure Accounted (run : Handler σ J) (workers : Nat) (store : σ)
    (log : List (Ticket J × Outcome)) (x : Executor σ J) : Prop where
  /-- An accepted job is in exactly one stage, once, and no other job is in any. -/
  stages : ∀ n, x.timesQueued n + x.timesHeld n + x.timesRunning n + x.timesReplied n =
    (x.isAccepted n).toNat
  started_once : x.started.Nodup
  worked_once : (log.map (·.1.number)).Nodup
  /-- The outcomes are those of the handler on the jobs that were submitted. -/
  worked : Replays run store log x.store
  worked_started : ∀ r ∈ log, x.Accepted r.1 ∧ r.1.number ∈ x.started
  reply_of_started : ∀ n r, (n, r) ∈ x.replies → n ∈ x.started →
    ∃ t o, (t, o) ∈ log ∧ t.number = n ∧ r = o.reply
  reply_of_not_started : ∀ n r, (n, r) ∈ x.replies → n ∉ x.started → r = .error .shutdown
  heard : ∀ n, x.isAccepted n = true → ∀ r, x.reply? n = some r ↔ (n, r) ∈ x.replies
  queued : x.queued = x.entering + x.queue.waiting.length + x.atGate
  active : x.active = x.workers.countP Worker.isActive
  active_le : x.active ≤ max workers 1
  /-- Who is about to lower a counter has been counted. -/
  queued_pos : ∀ a ∈ x.workers, a.isAtGate = true → 0 < x.queued
  queued_pos_of_entering : ∀ s ∈ x.submissions, s.isEntering = true → 0 < x.queued
  active_pos : ∀ a ∈ x.workers, a.isActive = true → 0 < x.active
  /-- When all workers have left, all accepted jobs are answered and nothing is counted but
  submissions. -/
  left : (∀ a ∈ x.workers, a.isStopped = true) →
    (∀ n, x.timesReplied n = (x.isAccepted n).toNat) ∧ x.queue.waiting = [] ∧ x.active = 0 ∧
      x.queued = x.entering

/-- In every state that any interleaving reaches, every job is accounted for. -/
theorem accounted_of_execution (h : Execution run workers store log x) :
    Accounted run workers store log x := by
  have hx := h.invariant
  obtain ⟨hb, hs, hr, hc, hsize⟩ := hx
  constructor
  case stages => exact hs
  case started_once => exact hr.started_nodup
  case worked_once => exact hr.log_nodup
  case worked => exact h.replays
  case worked_started => exact hr.logged
  case reply_of_started =>
    intro n r hnr hn
    rcases hr.replies n r hnr with ⟨_, h⟩ | ⟨h, _⟩
    · exact h
    · exact absurd hn h
  case reply_of_not_started =>
    intro n r hnr hn
    rcases hr.replies n r hnr with ⟨h, _⟩ | ⟨_, h, _⟩
    · exact absurd h hn
    · exact h
  case heard => exact fun n hn r => reply?_eq_some_iff hs hn r
  case queued => exact hb.queued
  case active => exact hb.active
  case active_le =>
    rw [hb.active, ← hsize]
    exact List.countP_le_length
  case queued_pos =>
    intro a ha hg
    obtain ⟨i, hi⟩ := List.getElem?_of_mem ha
    exact hb.queued_pos hi hg
  case queued_pos_of_entering =>
    intro s hsub he
    have : 0 < x.entering := List.countP_pos_iff.2 ⟨s, hsub, he⟩
    have := hb.queued
    omega
  case active_pos =>
    intro a ha hg
    obtain ⟨i, hi⟩ := List.getElem?_of_mem ha
    exact hb.active_pos hi hg
  case left =>
    intro hleft
    obtain ⟨hq, _⟩ := hc.stopped (stopped_mem h.invariant hleft)
    have hgate : x.atGate = 0 := countP_eq_zero_of_stopped hleft rfl
    have hactive := hb.queued
    refine ⟨?_, hq, ?_, ?_⟩
    · intro n
      have h1 : x.timesQueued n = 0 := by rw [timesQueued, hq]; rfl
      have h2 : x.timesHeld n = 0 := countP_eq_zero_of_stopped hleft rfl
      have h3 : x.timesRunning n = 0 := countP_eq_zero_of_stopped hleft rfl
      have := hs n
      omega
    · rw [hb.active]
      exact countP_eq_zero_of_stopped hleft rfl
    · rw [hq] at hactive
      simpa [hgate] using hactive

/-- **No job is lost and none is done twice.**  A reachable executor has an execution that leads to
it, and whatever its execution was, its jobs are accounted for. -/
theorem accounted_of_reachable (h : Reachable run workers store x) :
    (∃ log, Execution run workers store log x) ∧
      ∀ log, Execution run workers store log x → Accounted run workers store log x :=
  ⟨exists_execution h, fun _ => accounted_of_execution⟩

/-- A handler that adds numbers up and crashes on zero. -/
def adding : Handler Nat Nat
  | 0, s => some (.crashed "zero", s)
  | n + 1, s => some (.answered (.ok (.count (.ofNat n))), s + (n + 1))

/-- Two jobs are done, one of them with a crash, and a third meets a shutdown at the gate. -/
def addingThenShutdown : List (Event Nat) :=
  [.submit 3, .submit 0, .push 1, .push 0, .worker 0, .worker 1, .worker 0, .worker 0, .worker 1,
    .worker 1, .worker 1, .worker 0, .worker 0, .worker 1, .worker 1, .worker 0, .worker 0,
    .worker 1, .submit 7, .push 2, .worker 1, .shutdown, .worker 1, .worker 1, .worker 1, .call 0,
    .worker 0, .worker 1]

theorem accounted_adding :
    ∃ x, (start 2 0).after adding addingThenShutdown = some x ∧ Reachable adding 2 0 x ∧
      x.started = [0, 1] ∧ x.store = 3 ∧ x.replies.map (·.1) = [0, 1, 2] ∧
      x.workers.all Worker.isStopped = true ∧ (∃ log, Execution adding 2 0 log x) ∧
      ∀ log, Execution adding 2 0 log x → Accounted adding 2 0 log x := by
  have hx : Reachable adding 2 0 _ := Reachable.start.after addingThenShutdown rfl
  exact ⟨_, rfl, hx, rfl, rfl, rfl, rfl, accounted_of_reachable hx⟩

end BucketCluster.Executor
