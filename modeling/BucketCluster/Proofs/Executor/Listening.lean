import BucketCluster.Proofs.Executor.Transition
import BucketCluster.Proofs.Lists

/-!
# Who listens for calls

Workers at the gate and callers of a pause fall asleep in three steps: they begin to
listen, look at what they wait for, and sleep.  In between anybody else may move.
`Watched` says of either of the two groups that nobody has missed a call: who sleeps
without having been called since it began to listen has a reason to.

Nothing is assumed about sleepers but that a call wakes those who listen already: they
may also wake up uncalled (`Stir`).
-/

namespace BucketCluster

/-! ## Listening -/

/-- The call count at which the worker began to listen, and whether it sleeps by now. -/
def Worker.attention? {J : Type} : Worker J → Option (Nat × Bool)
  | .listening _ heard => some (heard, false)
  | .asleep _ heard => some (heard, true)
  | _ => none

/-- The call count at which the caller of a pause began to listen, and whether it sleeps by now. -/
def Call.attention? : Call → Option (Nat × Bool)
  | .pauseListening heard => some (heard, false)
  | .pauseAsleep heard => some (heard, true)
  | _ => none

/-- A resume or a shutdown that has changed the mode and has not called the workers yet. -/
def Call.owesWorkers : Call → Bool
  | .resumeEntered => true
  | .shutdownEntered => true
  | .shutdownClosed => true
  | _ => false

/-- Of those who listen none is ahead of the calls, and who sleeps has been called or
has a reason. -/
def Watched {α : Type} (attention? : α → Option (Nat × Bool)) (listeners : List α) (calls : Nat)
    (reason : Prop) : Prop :=
  ∀ a ∈ listeners, ∀ heard asleep, attention? a = some (heard, asleep) →
    heard ≤ calls ∧ (asleep = true → heard < calls ∨ reason)

namespace Watched

variable {α : Type} {attention? : α → Option (Nat × Bool)} {l : List α} {calls calls' : Nat}
  {reason reason' : Prop}

/-- Who sleeps goes on to have a reason, or everybody is called. -/
theorem mono (h : Watched attention? l calls reason) (hc : calls ≤ calls')
    (hr : reason → calls < calls' ∨ reason') : Watched attention? l calls' reason' := by
  intro a ha heard asleep hatt
  obtain ⟨hle, hreason⟩ := h a ha heard asleep hatt
  refine ⟨by omega, ?_⟩
  intro hasleep
  rcases hreason hasleep with hlt | hr'
  · exact .inl (by omega)
  · rcases hr hr' with hlt | hr'
    · exact .inl (by omega)
    · exact .inr hr'

/-- One of them moves on. -/
theorem set (h : Watched attention? l calls reason) (i : Nat) {b : α}
    (hb : Watched attention? [b] calls reason) : Watched attention? (l.set i b) calls reason := by
  intro a ha
  rcases List.mem_or_eq_of_mem_set ha with ha | rfl
  · exact h a ha
  · exact hb a (List.mem_singleton_self a)

/-- One more comes. -/
theorem concat (h : Watched attention? l calls reason) {b : α}
    (hb : Watched attention? [b] calls reason) : Watched attention? (l ++ [b]) calls reason := by
  intro a ha
  rcases List.mem_append.1 ha with ha | ha
  · exact h a ha
  · exact hb a ha

/-- Who does not listen misses nothing. -/
theorem deaf {b : α} (hb : attention? b = none) : Watched attention? [b] calls reason := by
  intro a ha heard asleep hatt
  rw [List.mem_singleton.1 ha, hb] at hatt
  cases hatt

/-- Who begins to listen hears the next call. -/
theorem awake {b : α} (hb : attention? b = some (calls, false)) :
    Watched attention? [b] calls reason := by
  intro a ha heard asleep hatt
  rw [List.mem_singleton.1 ha, hb] at hatt
  cases hatt
  exact ⟨Nat.le_refl _, nofun⟩

/-- Who listens and finds a reason may fall asleep. -/
theorem sleep (h : Watched attention? l calls reason) {i : Nat} {a b : α} {heard : Nat}
    (ha : l[i]? = some a) (hatt : attention? a = some (heard, false))
    (hb : attention? b = some (heard, true)) (hr : reason) :
    Watched attention? (l.set i b) calls reason := by
  refine h.set i ?_
  intro c hc heard' asleep hatt'
  rw [List.mem_singleton.1 hc, hb] at hatt'
  cases hatt'
  exact ⟨(h a (List.mem_of_getElem? ha) heard false hatt).1, fun _ => .inr hr⟩

end Watched

namespace Executor

variable {σ J : Type}

/-! ## The gate and the pause -/

/-- How many calls have changed the mode and not called the workers yet. -/
def owed (x : Executor σ J) : Nat := x.calls.countP Call.owesWorkers

/-- The workers at the gate have missed nothing. -/
def GateWatched (x : Executor σ J) : Prop :=
  Watched Worker.attention? x.workers x.resumptions (x.mode = .paused ∨ 0 < x.owed)

/-- The callers of a pause have missed nothing. -/
def PauseWatched (x : Executor σ J) : Prop :=
  Watched Call.attention? x.calls x.idlings (0 < x.active)

variable {run : Handler σ J} {x y : Executor σ J} {e : Event J} {w : Option (Ticket J × Outcome)}

theorem owed_addCall (x : Executor σ J) (c : Call) :
    (x.addCall c).owed = x.owed + if c.owesWorkers then 1 else 0 := by
  rw [owed, addCall, List.countP_append, List.countP_singleton, owed]

theorem owed_le_addCall (x : Executor σ J) (c : Call) : x.owed ≤ (x.addCall c).owed := by
  rw [owed_addCall]
  omega

theorem owed_pos_addCall (x : Executor σ J) {c : Call} (hc : c.owesWorkers = true) :
    0 < (x.addCall c).owed := by
  rw [owed_addCall, if_pos hc]
  omega

/-- A call that gets further without calling the workers owes what it owed. -/
theorem owed_setCall {i : Nat} {a b : Call} (ha : x.calls[i]? = some a)
    (hab : b.owesWorkers = a.owesWorkers) : x.owed ≤ (x.setCall i b).owed := by
  have hcount := countP_set_add Call.owesWorkers ha b
  rw [hab] at hcount
  show x.calls.countP Call.owesWorkers ≤ (x.calls.set i b).countP Call.owesWorkers
  omega

/-- At the gate, a step that changes nothing but the calls: a reason to sleep stays one. -/
theorem GateWatched.calls (hx : GateWatched x) (hworkers : y.workers = x.workers)
    (hresumptions : y.resumptions = x.resumptions) (hmode : y.mode = x.mode)
    (howed : x.owed ≤ y.owed) :
    GateWatched y := by
  unfold GateWatched
  rw [hworkers, hresumptions, hmode]
  refine hx.mono (Nat.le_refl _) ?_
  rintro (hpaused | hpos)
  · exact .inr (.inl hpaused)
  · exact .inr (.inr (by omega))

/-- All workers at the gate are called. -/
theorem GateWatched.called (hx : GateWatched x) (hworkers : y.workers = x.workers)
    (hresumptions : y.resumptions = x.resumptions + 1) : GateWatched y := by
  unfold GateWatched
  rw [hworkers, hresumptions]
  exact hx.mono (by omega) fun _ => .inl (by omega)

/-- Nobody at the gate is without a reason. -/
theorem GateWatched.reason (hx : GateWatched x) (hworkers : y.workers = x.workers)
    (hresumptions : y.resumptions = x.resumptions) (hreason : y.mode = .paused ∨ 0 < y.owed) :
    GateWatched y := by
  unfold GateWatched
  rw [hworkers, hresumptions]
  exact hx.mono (Nat.le_refl _) fun _ => .inr hreason

theorem gateWatched_step (h : Transition run x e w y) (hx : GateWatched x) : GateWatched y := by
  cases h with
  | popped i t rest hw hq => exact hx.set i (.deaf rfl)
  | left i hw hq ho => exact hx.set i (.deaf rfl)
  | listened i t hw => exact hx.set i (.awake rfl)
  | admitted i t heard hw hm => exact hx.set i (.deaf rfl)
  | refused i t heard hw hm => exact hx.set i (.deaf rfl)
  | slept i t heard hw hm => exact hx.sleep hw rfl rfl (.inl hm)
  | woke i t heard hw hc => exact hx.set i (.deaf rfl)
  | answered i t hw => exact hx.set i (.deaf rfl)
  | began i t hw => exact hx.set i (.deaf rfl)
  | ended i t o s hw hr => exact hx.set i (.deaf rfl)
  | replied i t r hw => exact hx.set i (.deaf rfl)
  | finished i t hw => exact hx.set i (.deaf rfl)
  | pauses hm => exact hx.reason rfl rfl (.inl rfl)
  | resumes hm => exact hx.reason rfl rfl (.inr (owed_pos_addCall x rfl))
  | shutsDown hm => exact hx.reason rfl rfl (.inr (owed_pos_addCall x rfl))
  | pausesIdly hm => exact hx.calls rfl rfl rfl (owed_le_addCall x .pauseEntered)
  | resumesIdly hm => exact hx.calls rfl rfl rfl (owed_le_addCall x .resumeReturned)
  | shutsDownIdly hm => exact hx.calls rfl rfl rfl (owed_le_addCall x .shutdownReturned)
  | pauseListened i hc => exact hx.calls rfl rfl rfl (owed_setCall hc rfl)
  | pauseReturned i heard hc ha => exact hx.calls rfl rfl rfl (owed_setCall hc rfl)
  | pauseSlept i heard hc ha => exact hx.calls rfl rfl rfl (owed_setCall hc rfl)
  | pauseWoke i heard hc hh => exact hx.calls rfl rfl rfl (owed_setCall hc rfl)
  | queueClosed i hc => exact hx.calls rfl rfl rfl (owed_setCall hc rfl)
  | shutdownReturned i hc hj => exact hx.calls rfl rfl rfl (owed_setCall hc rfl)
  | resumeNotified i hc => exact hx.called rfl rfl
  | shutdownNotified i hc => exact hx.called rfl rfl
  | _ => exact hx

theorem pauseWatched_step (h : Transition run x e w y) (hx : PauseWatched x) : PauseWatched y := by
  cases h with
  | admitted i t heard hw hm => exact hx.mono (Nat.le_refl _) fun _ => .inr (Nat.succ_pos _)
  | finished i t hw =>
    -- the last one calls, and with another one there is a reason to sleep on
    show Watched _ x.calls (if x.active - 1 = 0 then x.idlings + 1 else x.idlings)
      (0 < x.active - 1)
    by_cases hlast : x.active - 1 = 0
    · rw [if_pos hlast]
      exact hx.mono (by omega) fun _ => .inl (by omega)
    · rw [if_neg hlast]
      exact hx.mono (Nat.le_refl _) fun _ => .inr (by omega)
  | pauses hm => exact hx.concat (.deaf rfl)
  | pausesIdly hm => exact hx.concat (.deaf rfl)
  | resumes hm => exact hx.concat (.deaf rfl)
  | resumesIdly hm => exact hx.concat (.deaf rfl)
  | shutsDown hm => exact hx.concat (.deaf rfl)
  | shutsDownIdly hm => exact hx.concat (.deaf rfl)
  | pauseListened i hc => exact hx.set i (.awake rfl)
  | pauseReturned i heard hc ha => exact hx.set i (.deaf rfl)
  | pauseSlept i heard hc ha => exact hx.sleep hc rfl rfl (Nat.pos_of_ne_zero ha)
  | pauseWoke i heard hc hh => exact hx.set i (.deaf rfl)
  | resumeNotified i hc => exact hx.set i (.deaf rfl)
  | queueClosed i hc => exact hx.set i (.deaf rfl)
  | shutdownNotified i hc => exact hx.set i (.deaf rfl)
  | shutdownReturned i hc hj => exact hx.set i (.deaf rfl)
  | _ => exact hx

/-! ## Stirring -/

/-- A step, or somebody asleep wakes up uncalled. -/
inductive Stir (run : Handler σ J) (x : Executor σ J) : Event J → Executor σ J → Prop where
  | step {y : Executor σ J} {e : Event J} (h : x.step run e = some y) : Stir run x e y
  | worker (i : Nat) (t : Ticket J) (heard : Nat) (hw : x.workers[i]? = some (.asleep t heard)) :
      Stir run x (.worker i) (x.setWorker i (.arrived t))
  | call (i heard : Nat) (hc : x.calls[i]? = some (.pauseAsleep heard)) :
      Stir run x (.call i) (x.setCall i .pauseEntered)

/-- The executor after some steps from the start, on the way of which sleepers may wake
up uncalled. -/
inductive Stirred (run : Handler σ J) (workers : Nat) (store : σ) : Executor σ J → Prop where
  | start : Stirred run workers store (Executor.start workers store)
  | stir {x y : Executor σ J} {e : Event J} :
      Stirred run workers store x → Stir run x e y → Stirred run workers store y

variable {workers : Nat} {store : σ}

theorem Reachable.stirred (h : Reachable run workers store x) : Stirred run workers store x := by
  induction h with
  | start => exact .start
  | step _ hs ih => exact ih.stir (.step hs)

/-- Nobody has missed a call. -/
structure Attentive (x : Executor σ J) : Prop where
  gate : GateWatched x
  pause : PauseWatched x

theorem attentive_start (workers : Nat) (store : σ) : Attentive (start (J := J) workers store) := by
  constructor
  · intro a ha heard asleep hatt
    rw [(List.mem_replicate.1 ha).2] at hatt
    cases hatt
  · intro a ha
    cases ha

theorem attentive_stir (h : Stir run x e y) (hx : Attentive x) : Attentive y := by
  cases h with
  | step h =>
    have ht := transition_of_step h
    exact ⟨gateWatched_step ht hx.gate, pauseWatched_step ht hx.pause⟩
  | worker i t heard hw => exact ⟨hx.gate.set i (.deaf rfl), hx.pause⟩
  | call i heard hc =>
    have hgate : GateWatched (x.setCall i .pauseEntered) :=
      hx.gate.calls rfl rfl rfl (owed_setCall hc rfl)
    exact ⟨hgate, hx.pause.set i (.deaf rfl)⟩

theorem Stirred.attentive (h : Stirred run workers store x) : Attentive x := by
  induction h with
  | start => exact attentive_start workers store
  | stir _ hs ih => exact attentive_stir hs ih

end Executor

end BucketCluster
