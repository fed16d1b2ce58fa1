import BucketCluster.Proofs.Executor.Transition
import BucketCluster.Proofs.Lists

/-!
# Accounting for jobs

Where the jobs of an executor are, counted in every state that any interleaving of
submitters, workers and calls can reach.
-/

namespace BucketCluster

/-! ## What workers hold -/

namespace Worker

variable {J : Type}

/-- The job that the worker holds and has neither started nor answered. -/
def heldJob? : Worker J → Option Nat
  | arrived t => some t.number
  | listening t _ => some t.number
  | asleep t _ => some t.number
  | refused t => some t.number
  | _ => none

/-- The job that the worker has let through the gate and not answered. -/
def runningJob? : Worker J → Option Nat
  | admitted t => some t.number
  | running t => some t.number
  | handled t _ => some t.number
  | _ => none

/-- The worker holds a job that has not been let through the gate or turned away. -/
def isAtGate : Worker J → Bool
  | arrived _ => true
  | listening _ _ => true
  | asleep _ _ => true
  | _ => false

end Worker

/-- The submission has been counted and is not in the queue yet. -/
def Submission.isEntering {J : Type} : Submission J → Bool
  | entering _ => true
  | _ => false

/-- The job got into the queue. -/
def Submission.isAccepted {J : Type} : Submission J → Bool
  | accepted _ => true
  | _ => false

namespace Executor

variable {σ J : Type}

/-! ## Counting -/

/-- How many submissions have been counted and are not in the queue yet. -/
def entering (x : Executor σ J) : Nat := x.submissions.countP Submission.isEntering

/-- How many workers hold a job that has not passed the gate. -/
def atGate (x : Executor σ J) : Nat := x.workers.countP Worker.isAtGate

/-- The two counters of the gate are right. -/
structure Balanced (x : Executor σ J) : Prop where
  queued : x.queued = x.entering + x.queue.waiting.length + x.atGate
  active : x.active = x.workers.countP Worker.isActive

variable {run : Handler σ J} {x y : Executor σ J} {e : Event J} {w : Option (Ticket J × Outcome)}

theorem balanced_start (workers : Nat) (store : σ) : Balanced (start (J := J) workers store) := by
  constructor
  · simp [start, entering, atGate, AdmissionQueue.empty, List.countP_replicate, Worker.isAtGate]
  · simp [start, List.countP_replicate, Worker.isActive]

/-- A worker at the gate has been counted: letting its job through does not take the counter
below zero. -/
theorem Balanced.queued_pos (hx : Balanced x) {i : Nat} {a : Worker J} (ha : x.workers[i]? = some a)
    (hg : a.isAtGate = true) : 0 < x.queued := by
  have : 0 < x.atGate := List.countP_pos_iff.2 ⟨a, List.mem_of_getElem? ha, hg⟩
  have := hx.queued
  omega

/-- A submission on its way has been counted: turning it away does not take the counter
below zero. -/
theorem Balanced.queued_pos_of_entering (hx : Balanced x) {n : Nat} {job : J}
    (hs : x.submissions[n]? = some (.entering job)) : 0 < x.queued := by
  have : 0 < x.entering := List.countP_pos_iff.2 ⟨_, List.mem_of_getElem? hs, rfl⟩
  have := hx.queued
  omega

/-- A worker past the gate has been counted: the end of its job does not take the counter
below zero. -/
theorem Balanced.active_pos (hx : Balanced x) {i : Nat} {a : Worker J} (ha : x.workers[i]? = some a)
    (hg : a.isActive = true) : 0 < x.active := by
  rw [hx.active]
  exact List.countP_pos_iff.2 ⟨a, List.mem_of_getElem? ha, hg⟩

/-- The counters stay right if one worker moves and they move by what it contributes. -/
theorem Balanced.move (hx : Balanced x) {i : Nat} {a b : Worker J} (ha : x.workers[i]? = some a)
    (hw : y.workers = x.workers.set i b) (hs : y.submissions = x.submissions)
    (hq : y.queued + x.queue.waiting.length + (if a.isAtGate then 1 else 0) =
      x.queued + y.queue.waiting.length + if b.isAtGate then 1 else 0)
    (hn : y.active + (if a.isActive then 1 else 0) = x.active + if b.isActive then 1 else 0) :
    Balanced y := by
  have hg := countP_set_add Worker.isAtGate ha b
  have hi := countP_set_add Worker.isActive ha b
  have h1 := hx.queued
  have h2 := hx.active
  constructor
  · unfold entering atGate at h1 ⊢
    rw [hw, hs]
    omega
  · rw [hw]
    omega

theorem balanced_step (h : Transition run x e w y) (hx : Balanced x) : Balanced y := by
  have hq := hx.queued
  have hn := hx.active
  unfold entering at hq
  cases h with
  | counted job hm =>
    refine ⟨?_, hn⟩
    simp [entering, atGate, Submission.isEntering] at hq ⊢
    omega
  | turnedAway job hm =>
    refine ⟨?_, hn⟩
    simpa [entering, atGate, Submission.isEntering] using hq
  | pushed n job hs ho =>
    have hc := countP_set_add Submission.isEntering hs (.accepted job)
    refine ⟨?_, hn⟩
    simp [entering, atGate, Submission.isEntering] at hq hc ⊢
    omega
  | handedBack n job hs ho =>
    have hc := countP_set_add Submission.isEntering hs (.rejected job)
    refine ⟨?_, hn⟩
    simp [entering, atGate, Submission.isEntering] at hq hc ⊢
    omega
  | popped i t rest hw hr =>
    refine hx.move hw rfl rfl ?_ rfl
    simp [hr, setWorker, Worker.isAtGate]
    omega
  | admitted i t heard hw hm =>
    have := hx.queued_pos hw rfl
    refine hx.move hw rfl rfl ?_ rfl
    simp [setWorker, Worker.isAtGate]
    omega
  | refused i t heard hw hm =>
    have := hx.queued_pos hw rfl
    refine hx.move hw rfl rfl ?_ rfl
    simp [setWorker, Worker.isAtGate]
    omega
  | finished i t hw =>
    have := hx.active_pos hw rfl
    refine hx.move hw rfl rfl rfl ?_
    simp [finish, Worker.isActive]
    omega
  | left i hw _ _ => exact hx.move hw rfl rfl rfl rfl
  | listened i t hw => exact hx.move hw rfl rfl rfl rfl
  | slept i t heard hw _ => exact hx.move hw rfl rfl rfl rfl
  | woke i t heard hw _ => exact hx.move hw rfl rfl rfl rfl
  | answered i t hw => exact hx.move hw rfl rfl rfl rfl
  | began i t hw => exact hx.move hw rfl rfl rfl rfl
  | ended i t o s hw _ => exact hx.move hw rfl rfl rfl rfl
  | replied i t r hw => exact hx.move hw rfl rfl rfl rfl
  | _ => exact ⟨hx.queued, hx.active⟩

/-! ## Stages -/

/-- How often a job waits in the queue. -/
def timesQueued (x : Executor σ J) (n : Nat) : Nat := x.queue.waiting.countP (·.number == n)

/-- How often a job is held by a worker that has neither started nor answered it. -/
def timesHeld (x : Executor σ J) (n : Nat) : Nat := x.workers.countP (·.heldJob? == some n)

/-- How often a job runs, or has run and is not answered. -/
def timesRunning (x : Executor σ J) (n : Nat) : Nat := x.workers.countP (·.runningJob? == some n)

/-- How often a job has been answered. -/
def timesReplied (x : Executor σ J) (n : Nat) : Nat := x.replies.countP (·.1 == n)

/-- The push of a job has succeeded. -/
def isAccepted (x : Executor σ J) (n : Nat) : Bool := x.submissions[n]?.any Submission.isAccepted

/-- Every job whose push has succeeded is in one stage, and no other job is in any. -/
def Staged (x : Executor σ J) : Prop :=
  ∀ n, x.timesQueued n + x.timesHeld n + x.timesRunning n + x.timesReplied n =
    (x.isAccepted n).toNat

theorem staged_start (workers : Nat) (store : σ) : Staged (start (J := J) workers store) := by
  intro n
  simp [start, timesQueued, timesHeld, timesRunning, timesReplied, isAccepted, AdmissionQueue.empty,
    List.countP_replicate, Worker.heldJob?, Worker.runningJob?]

/-- The stages stay apart if one worker moves and takes its job from one stage to the next. -/
theorem Staged.move (hx : Staged x) {i : Nat} {a b : Worker J} (ha : x.workers[i]? = some a)
    (hw : y.workers = x.workers.set i b) (hs : y.submissions = x.submissions)
    (hn : ∀ n, y.timesQueued n + (if b.heldJob? == some n then 1 else 0) +
        (if b.runningJob? == some n then 1 else 0) + y.timesReplied n =
      x.timesQueued n + (if a.heldJob? == some n then 1 else 0) +
        (if a.runningJob? == some n then 1 else 0) + x.timesReplied n) : Staged y := by
  intro n
  have hh := countP_set_add (fun w => w.heldJob? == some n) ha b
  have hr := countP_set_add (fun w => w.runningJob? == some n) ha b
  have h1 := hx n
  have h2 := hn n
  unfold timesHeld timesRunning isAccepted at h1 ⊢
  rw [hw, hs]
  omega

theorem isAccepted_append (x : Executor σ J) {s : Submission J} (hs : s.isAccepted = false)
    (n : Nat) : (x.submissions ++ [s])[n]?.any Submission.isAccepted = x.isAccepted n := by
  unfold isAccepted
  rcases Nat.lt_trichotomy n x.submissions.length with h | h | h
  · rw [List.getElem?_append_left h]
  · subst h
    simp [hs]
  · rw [List.getElem?_eq_none (by simp; omega), List.getElem?_eq_none (by omega)]

theorem isAccepted_set (x : Executor σ J) {m : Nat} {job : J}
    (hs : x.submissions[m]? = some (.entering job)) (s : Submission J) (n : Nat) :
    ((x.submissions.set m s)[n]?.any Submission.isAccepted).toNat =
      (x.isAccepted n).toNat + if m = n then s.isAccepted.toNat else 0 := by
  have hlt := (List.getElem?_eq_some_iff.1 hs).1
  unfold isAccepted
  rw [List.getElem?_set]
  by_cases hmn : m = n
  · subst hmn
    rw [hs, if_pos rfl, if_pos hlt, if_pos rfl]
    simp [Submission.isAccepted]
  · rw [if_neg hmn, if_neg hmn]
    rfl

theorem staged_step (h : Transition run x e w y) (hx : Staged x) : Staged y := by
  cases h with
  | counted job hm =>
    intro n
    have := hx n
    rwa [← isAccepted_append x (s := .entering job) rfl n] at this
  | turnedAway job hm =>
    intro n
    have := hx n
    rwa [← isAccepted_append x (s := .rejected job) rfl n] at this
  | pushed m job hs ho =>
    intro n
    have h1 := hx n
    have h2 := isAccepted_set x hs (.accepted job) n
    simp only [timesQueued, timesHeld, timesRunning, timesReplied] at h1 ⊢
    rw [isAccepted, h2, ← h1, List.countP_append, List.countP_singleton]
    simp only [beq_iff_eq, Submission.isAccepted, Bool.toNat_true]
    omega
  | handedBack m job hs ho =>
    intro n
    have h2 := isAccepted_set x hs (.rejected job) n
    rw [isAccepted, h2, ← hx n]
    simp [timesQueued, timesHeld, timesRunning, timesReplied, Submission.isAccepted]
  | popped i t rest hw hr =>
    refine hx.move hw rfl rfl ?_
    intro n
    simp [timesQueued, timesReplied, hr, setWorker, Worker.heldJob?, Worker.runningJob?,
      List.countP_cons]
  | answered i t hw =>
    refine hx.move hw rfl rfl ?_
    intro n
    simp [timesQueued, timesReplied, sendReply, setWorker, Worker.heldJob?, Worker.runningJob?]
    omega
  | replied i t r hw =>
    refine hx.move hw rfl rfl ?_
    intro n
    simp [timesQueued, timesReplied, sendReply, setWorker, Worker.heldJob?, Worker.runningJob?]
    omega
  | admitted i t heard hw _ =>
    refine hx.move hw rfl rfl ?_
    intro n
    simp [timesQueued, timesReplied, setWorker, Worker.heldJob?, Worker.runningJob?]
  | left i hw _ _ => exact hx.move hw rfl rfl fun n => rfl
  | listened i t hw => exact hx.move hw rfl rfl fun n => rfl
  | refused i t heard hw _ => exact hx.move hw rfl rfl fun n => rfl
  | slept i t heard hw _ => exact hx.move hw rfl rfl fun n => rfl
  | woke i t heard hw _ => exact hx.move hw rfl rfl fun n => rfl
  | began i t hw => exact hx.move hw rfl rfl fun n => rfl
  | ended i t o s hw _ => exact hx.move hw rfl rfl fun n => rfl
  | finished i t hw => exact hx.move hw rfl rfl fun n => rfl
  | _ => exact hx

end Executor

end BucketCluster
