import BucketCluster.Proofs.Executor.Conservation
import BucketCluster.Proofs.Executor.Listening

/-!
# No call is missed

A worker sleeps at the gate without having been called only while the executor is
paused, or while somebody who has ended the pause is about to call; the caller of a
pause sleeps uncalled only while a job is active (`no_call_missed`).

What becomes of sleepers is said of endless courses of events that are fair to workers
and calls: none of them can move for ever without doing so.  A worker wakes up unless
the executor is paused again, and a pause of an executor without active jobs returns.
-/

namespace BucketCluster

/-- A pause that has not returned. -/
def Call.isPausing : Call → Bool
  | .pauseEntered => true
  | .pauseListening _ => true
  | .pauseAsleep _ => true
  | _ => false

namespace Executor

variable {σ J : Type}

/-- The worker sleeps at the gate. -/
def SleepsAt (x : Executor σ J) (i : Nat) : Prop :=
  ∃ t heard, x.workers[i]? = some (.asleep t heard)

/-- The step of a worker or of a call that has come in. -/
def Event.isOngoing : Event J → Bool
  | .worker _ => true
  | .call _ => true
  | _ => false

/-! ## What stirring changes -/

variable {run : Handler σ J} {x y : Executor σ J} {e : Event J} {i : Nat}

theorem workers_of_stir (h : Stir run x e y) :
    y.workers = x.workers ∨ ∃ j b, e = .worker j ∧ y.workers = x.workers.set j b := by
  cases h with
  | step h =>
    have ht := transition_of_step h
    generalize x.work run _ = w at ht
    cases ht with
    | popped j t rest hw hq => exact .inr ⟨j, _, rfl, rfl⟩
    | left j hw hq ho => exact .inr ⟨j, _, rfl, rfl⟩
    | listened j t hw => exact .inr ⟨j, _, rfl, rfl⟩
    | admitted j t heard hw hm => exact .inr ⟨j, _, rfl, rfl⟩
    | refused j t heard hw hm => exact .inr ⟨j, _, rfl, rfl⟩
    | slept j t heard hw hm => exact .inr ⟨j, _, rfl, rfl⟩
    | woke j t heard hw hc => exact .inr ⟨j, _, rfl, rfl⟩
    | answered j t hw => exact .inr ⟨j, _, rfl, rfl⟩
    | began j t hw => exact .inr ⟨j, _, rfl, rfl⟩
    | ended j t o s hw hr => exact .inr ⟨j, _, rfl, rfl⟩
    | replied j t r hw => exact .inr ⟨j, _, rfl, rfl⟩
    | finished j t hw => exact .inr ⟨j, _, rfl, rfl⟩
    | _ => exact .inl rfl
  | worker j t heard hw => exact .inr ⟨j, _, rfl, rfl⟩
  | call j heard hc => exact .inl rfl

theorem calls_of_stir (h : Stir run x e y) :
    y.calls = x.calls ∨ (∃ c, y.calls = x.calls ++ [c]) ∨ ∃ j c, e = .call j ∧
    y.calls = x.calls.set j c := by
  cases h with
  | step h =>
    have ht := transition_of_step h
    generalize x.work run _ = w at ht
    cases ht with
    | pauses hm => exact .inr (.inl ⟨_, rfl⟩)
    | pausesIdly hm => exact .inr (.inl ⟨_, rfl⟩)
    | resumes hm => exact .inr (.inl ⟨_, rfl⟩)
    | resumesIdly hm => exact .inr (.inl ⟨_, rfl⟩)
    | shutsDown hm => exact .inr (.inl ⟨_, rfl⟩)
    | shutsDownIdly hm => exact .inr (.inl ⟨_, rfl⟩)
    | pauseListened j hc => exact .inr (.inr ⟨j, _, rfl, rfl⟩)
    | pauseReturned j heard hc ha => exact .inr (.inr ⟨j, _, rfl, rfl⟩)
    | pauseSlept j heard hc ha => exact .inr (.inr ⟨j, _, rfl, rfl⟩)
    | pauseWoke j heard hc hh => exact .inr (.inr ⟨j, _, rfl, rfl⟩)
    | resumeNotified j hc => exact .inr (.inr ⟨j, _, rfl, rfl⟩)
    | queueClosed j hc => exact .inr (.inr ⟨j, _, rfl, rfl⟩)
    | shutdownNotified j hc => exact .inr (.inr ⟨j, _, rfl, rfl⟩)
    | shutdownReturned j hc hj => exact .inr (.inr ⟨j, _, rfl, rfl⟩)
    | _ => exact .inl rfl
  | worker j t heard hw => exact .inl rfl
  | call j heard hc => exact .inr (.inr ⟨j, _, rfl, rfl⟩)

/-- A worker is where it is until it moves. -/
theorem worker_stays (h : Stir run x e y) (he : e ≠ .worker i) {a : Worker J}
    (hw : x.workers[i]? = some a) : y.workers[i]? = some a := by
  rcases workers_of_stir h with hsame | ⟨j, b, rfl, hset⟩
  · rw [hsame, hw]
  · have hji : j ≠ i := by
      rintro rfl
      exact he rfl
    rw [hset, List.getElem?_set_ne hji, hw]

/-- A call is where it is until it gets further. -/
theorem call_stays (h : Stir run x e y) (he : e ≠ .call i) {c : Call} (hc : x.calls[i]? = some c) :
    y.calls[i]? = some c := by
  rcases calls_of_stir h with hsame | ⟨c', hadd⟩ | ⟨j, c', rfl, hset⟩
  · rw [hsame, hc]
  · rw [hadd, List.getElem?_append_left (List.getElem?_eq_some_iff.1 hc).1, hc]
  · have hji : j ≠ i := by
      rintro rfl
      exact he rfl
    rw [hset, List.getElem?_set_ne hji, hc]

/-- A worker asleep can only wake up. -/
theorem worker_wakes (h : Stir run x (.worker i) y) {t : Ticket J} {heard : Nat}
    (hw : x.workers[i]? = some (.asleep t heard)) : y.workers[i]? = some (.arrived t) := by
  have hlt := (List.getElem?_eq_some_iff.1 hw).1
  have hwoken : y = x.setWorker i (.arrived t) := by
    cases h with
    | step h =>
      simp only [step, hw, Option.bind_eq_bind, Option.bind_some, moveWorker] at h
      split at h
      · exact (Option.some.inj h).symm
      · cases h
    | worker _ t' heard' hw' =>
      rw [hw] at hw'
      cases hw'
      rfl
  rw [hwoken, setWorker, List.getElem?_set_self hlt]

/-- A call that can get further does so in its own step. -/
theorem call_moves (h : Stir run x (.call i) y) {c : Call} (hc : x.calls[i]? = some c)
    {z : Executor σ J} (hz : x.moveCall i c = some z) : y = z := by
  cases h with
  | step h =>
    simp only [step, hc, Option.bind_eq_bind, Option.bind_some, hz] at h
    exact (Option.some.inj h).symm
  | call _ heard hc' =>
    rw [hc] at hc'
    cases hc'
    rw [moveCall] at hz
    split at hz
    · exact Option.some.inj hz
    · cases hz

theorem resumptions_le (h : Stir run x e y) : x.resumptions ≤ y.resumptions := by
  cases h with
  | step h =>
    have ht := transition_of_step h
    generalize x.work run _ = w at ht
    cases ht with
    | resumeNotified j hc => exact Nat.le_succ _
    | shutdownNotified j hc => exact Nat.le_succ _
    | _ => exact Nat.le_refl _
  | worker j t heard hw => exact Nat.le_refl _
  | call j heard hc => exact Nat.le_refl _

theorem getElem?_setCall {c : Call} (hc : x.calls[i]? = some c) (b : Call) :
    (x.setCall i b).calls[i]? = some b :=
  List.getElem?_set_self (List.getElem?_eq_some_iff.1 hc).1

/-! ## Courses -/

/-- An endless course of events. -/
structure Course (run : Handler σ J) (x : Executor σ J) where
  state : Nat → Executor σ J
  event : Nat → Event J
  start : state 0 = x
  next : ∀ n, Stir run (state n) (event n) (state (n + 1))

/-- No worker and no call can move from some time on without ever doing so. -/
def Course.Fair (c : Course run x) : Prop :=
  ∀ e : Event J, e.isOngoing = true → ∀ n, (∀ m, n ≤ m → ((c.state m).step run e).isSome = true) →
    ∃ m, n ≤ m ∧ c.event m = e

namespace Course

variable {c : Course run x} {n : Nat} {a : Call}

theorem stirred {workers : Nat} {store : σ} (c : Course run x) (hx : Stirred run workers store x)
    (n : Nat) : Stirred run workers store (c.state n) := by
  induction n with
  | zero =>
    rw [c.start]
    exact hx
  | succ n ih => exact ih.stir (c.next n)

theorem resumptions_mono (c : Course run x) {n m : Nat} (h : n ≤ m) :
    (c.state n).resumptions ≤ (c.state m).resumptions := by
  induction m, h using Nat.le_induction with
  | base => exact Nat.le_refl _
  | succ m _ ih => exact Nat.le_trans ih (resumptions_le (c.next m))

/-- Whoever can move as long as it has not moved, moves. -/
theorem Fair.moves (hfair : c.Fair) {e : Event J} (he : e.isOngoing = true)
    {p : Executor σ J → Prop} (hstay : ∀ m, p (c.state m) → c.event m ≠ e → p (c.state (m + 1)))
    (hcan : ∀ m, p (c.state m) → ((c.state m).step run e).isSome = true) (hn : p (c.state n)) :
    ∃ m, n ≤ m ∧ p (c.state m) ∧ c.event m = e := by
  by_contra hnever
  have hp : ∀ m, n ≤ m → p (c.state m) := by
    intro m hm
    induction m, hm using Nat.le_induction with
    | base => exact hn
    | succ m hm ih => exact hstay m ih fun hmove => hnever ⟨m, hm, ih, hmove⟩
  obtain ⟨m, hm, hmove⟩ := hfair e he n fun m hm => hcan m (hp m hm)
  exact hnever ⟨m, hm, hp m hm, hmove⟩

/-- A call that never has to wait gets further. -/
theorem Fair.call_goes (hfair : c.Fair) (ha : (c.state n).calls[i]? = some a)
    (next : Executor σ J → Executor σ J)
    (hnext : ∀ m, (c.state m).calls[i]? = some a →
      (c.state m).moveCall i a = some (next (c.state m))) :
    ∃ m, n ≤ m ∧ (c.state m).calls[i]? = some a ∧ c.state (m + 1) = next (c.state m) := by
  have hcan : ∀ m, (c.state m).calls[i]? = some a →
      ((c.state m).step run (.call i)).isSome = true := by
    intro m ha
    simp only [step, ha, Option.bind_eq_bind, Option.bind_some, hnext m ha]
    rfl
  obtain ⟨m, hm, ha, hmove⟩ := hfair.moves (e := .call i) rfl (p := fun y => y.calls[i]? = some a)
    (fun m ha he => call_stays (c.next m) he ha) hcan ha
  have hstir := c.next m
  rw [hmove] at hstir
  exact ⟨m, hm, ha, call_moves hstir ha (hnext m ha)⟩

/-! ## Workers -/

/-- Who has nothing left to do but to call the workers calls them. -/
theorem Fair.notifies (hfair : c.Fair) (ha : (c.state n).calls[i]? = some a) {b : Call}
    (hnext : ∀ y : Executor σ J,
      y.moveCall i a = some { y.setCall i b with resumptions := y.resumptions + 1 }) :
    ∃ m, (c.state n).resumptions < (c.state m).resumptions := by
  obtain ⟨m, hm, -, hmove⟩ :=
    hfair.call_goes ha (fun y => { y.setCall i b with resumptions := y.resumptions + 1 })
    fun m _ => hnext (c.state m)
  have hle := c.resumptions_mono hm
  refine ⟨m + 1, ?_⟩
  rw [hmove]
  exact Nat.lt_succ_of_le hle

/-- Who owes the workers a call calls them. -/
theorem Fair.workers_called (hfair : c.Fair) (ha : (c.state n).calls[i]? = some a)
    (howes : a.owesWorkers = true) : ∃ m, (c.state n).resumptions < (c.state m).resumptions := by
  cases a with
  | resumeEntered => exact hfair.notifies ha fun _ => rfl
  | shutdownClosed => exact hfair.notifies ha fun _ => rfl
  | shutdownEntered =>
    -- the queue is closed first
    obtain ⟨m, hm, ham, hmove⟩ := hfair.call_goes ha
      (fun y => { y.setCall i .shutdownClosed with queue := y.queue.close }) fun _ _ => rfl
    have hle := c.resumptions_mono (show n ≤ m + 1 by omega)
    have hclosed : (c.state (m + 1)).calls[i]? = some .shutdownClosed := by
      rw [hmove]
      exact getElem?_setCall ham .shutdownClosed
    obtain ⟨k, hk⟩ := hfair.notifies hclosed fun _ => rfl
    exact ⟨k, by omega⟩
  | _ => cases howes

/-- Who sleeps without a pause is called some time, unless it has been. -/
theorem Fair.calls_sleeper {workers : Nat} {store : σ} (hfair : c.Fair)
    (hx : Stirred run workers store x) (hmode : (c.state n).mode ≠ .paused) {t : Ticket J}
    {heard : Nat} (hw : (c.state n).workers[i]? = some (.asleep t heard)) :
    ∃ m, heard < (c.state m).resumptions := by
  obtain ⟨hle, hreason⟩ :=
    (c.stirred hx n).attentive.gate _ (List.mem_of_getElem? hw) heard true rfl
  rcases hreason rfl with hlt | hpaused | howed
  · exact ⟨n, hlt⟩
  · exact absurd hpaused hmode
  · obtain ⟨a, ha, howes⟩ := List.countP_pos_iff.1 howed
    obtain ⟨j, hj⟩ := List.getElem?_of_mem ha
    obtain ⟨m, hm⟩ := hfair.workers_called hj howes
    exact ⟨m, by omega⟩

/-- A worker that sleeps all the time does not move. -/
theorem still_of_sleeps (hsleeps : ∀ n, (c.state n).SleepsAt i) (n : Nat) :
    c.event n ≠ .worker i := by
  intro hmove
  obtain ⟨t, heard, hw⟩ := hsleeps n
  obtain ⟨t', heard', hw'⟩ := hsleeps (n + 1)
  have hstir := c.next n
  rw [hmove] at hstir
  rw [worker_wakes hstir hw] at hw'
  cases hw'

/-- A worker does not sleep on while the executor is not paused. -/
theorem Fair.wakes {workers : Nat} {store : σ} (hfair : c.Fair) (hx : Stirred run workers store x)
    (hmode : ∀ n, (c.state n).mode ≠ .paused) (i : Nat) : ∃ n, ¬ (c.state n).SleepsAt i := by
  by_contra hall
  have hsleeps : ∀ n, (c.state n).SleepsAt i := by
    intro n
    by_contra hn
    exact hall ⟨n, hn⟩
  have hstill := still_of_sleeps hsleeps
  obtain ⟨t, heard, hw⟩ := hsleeps 0
  have hstays : ∀ n, (c.state n).workers[i]? = some (.asleep t heard) := by
    intro n
    induction n with
    | zero => exact hw
    | succ n ih => exact worker_stays (c.next n) (hstill n) ih
  -- from the call on it could move, and being fair it would
  obtain ⟨n, hn⟩ := hfair.calls_sleeper hx (hmode 0) hw
  obtain ⟨m, -, hmove⟩ := hfair (.worker i) rfl n fun m hm => by
    have hlt : heard < (c.state m).resumptions := Nat.lt_of_lt_of_le hn (c.resumptions_mono hm)
    simp only [step, hstays m, Option.bind_eq_bind, Option.bind_some, moveWorker, if_pos hlt]
    rfl
  exact hstill m hmove

/-! ## Pauses -/

/-- A call that only has to say how far it has come does so. -/
theorem Fair.call_sets (hfair : c.Fair) (ha : (c.state n).calls[i]? = some a)
    (next : Executor σ J → Call) (hnext : ∀ m, (c.state m).calls[i]? = some a →
      (c.state m).moveCall i a = some ((c.state m).setCall i (next (c.state m)))) :
    ∃ m, (c.state (m + 1)).calls[i]? = some (next (c.state m)) := by
  obtain ⟨m, -, ham, hmove⟩ := hfair.call_goes ha (fun y => y.setCall i (next y)) hnext
  refine ⟨m, ?_⟩
  rw [hmove]
  exact getElem?_setCall ham _

theorem Fair.returns_of_listening (hfair : c.Fair) (hactive : ∀ n, (c.state n).active = 0)
    {heard : Nat} (ha : (c.state n).calls[i]? = some (.pauseListening heard)) :
    ∃ m, (c.state m).calls[i]? = some .pauseReturned := by
  obtain ⟨m, hm⟩ := hfair.call_sets ha (fun _ => .pauseReturned) fun m _ => by
    rw [moveCall, if_pos (hactive m)]
  exact ⟨m + 1, hm⟩

theorem Fair.returns_of_entered (hfair : c.Fair) (hactive : ∀ n, (c.state n).active = 0)
    (ha : (c.state n).calls[i]? = some .pauseEntered) :
    ∃ m, (c.state m).calls[i]? = some .pauseReturned := by
  obtain ⟨m, hm⟩ := hfair.call_sets ha (fun y => .pauseListening y.idlings) fun _ _ => rfl
  exact hfair.returns_of_listening hactive hm

/-- A pause returns while no job is active. -/
theorem Fair.returns {workers : Nat} {store : σ} (hfair : c.Fair) (hx : Stirred run workers store x)
    (hactive : ∀ n, (c.state n).active = 0) (ha : (c.state n).calls[i]? = some a)
    (hpausing : a.isPausing = true) :
    ∃ m, (c.state m).calls[i]? = some .pauseReturned := by
  cases a with
  | pauseEntered => exact hfair.returns_of_entered hactive ha
  | pauseListening heard => exact hfair.returns_of_listening hactive ha
  | pauseAsleep heard =>
    -- without active jobs, whoever is asleep has been called
    have hcalled : ∀ m, (c.state m).calls[i]? = some (.pauseAsleep heard) →
        heard < (c.state m).idlings := by
      intro m ham
      obtain ⟨-, hreason⟩ :=
        (c.stirred hx m).attentive.pause _ (List.mem_of_getElem? ham) heard true rfl
      rcases hreason rfl with hlt | hpos
      · exact hlt
      · rw [hactive m] at hpos
        cases hpos
    obtain ⟨m, hm⟩ := hfair.call_sets ha (fun _ => .pauseEntered) fun m ham => by
      rw [moveCall, if_pos (hcalled m ham)]
    exact hfair.returns_of_entered hactive hm
  | _ => cases hpausing

end Course

/-! ## Fair courses -/

/-- Nothing moves on its own. -/
def isResting (x : Executor σ J) : Bool :=
  x.workers.all (· matches .idle) && x.queue.waiting.isEmpty && x.queue.isOpen &&
    x.calls.all Call.hasReturned

theorem isResting_submit (x : Executor σ J) (job : J) : (x.submit job).isResting = x.isResting := by
  unfold submit
  split <;> rfl

theorem step_of_isResting (hx : x.isResting = true) (he : e.isOngoing = true) :
    x.step run e = none := by
  simp only [isResting, Bool.and_eq_true, List.all_eq_true] at hx
  obtain ⟨⟨⟨hworkers, hwaiting⟩, hopen⟩, hcalls⟩ := hx
  cases e with
  | worker i =>
    cases hw : x.workers[i]? with
    | none => simp [step, hw]
    | some a =>
      have hidle := hworkers a (List.mem_of_getElem? hw)
      cases a with
      | idle => simp [step, hw, moveWorker, AdmissionQueue.pop, List.isEmpty_iff.1 hwaiting, hopen]
      | _ => cases hidle
  | call i =>
    cases hc : x.calls[i]? with
    | none => simp [step, hc]
    | some c =>
      have hreturned := hcalls c (List.mem_of_getElem? hc)
      cases c with
      | pauseReturned => simp [step, hc, moveCall]
      | resumeReturned => simp [step, hc, moveCall]
      | shutdownReturned => simp [step, hc, moveCall]
      | _ => cases hreturned
  | _ => cases he

/-- Only a pause stops an executor from running. -/
theorem unpaused_step (h : x.step run e = some y) (he : e ≠ .pause) (hm : x.mode ≠ .paused) :
    y.mode ≠ .paused := by
  have ht := transition_of_step h
  generalize x.work run _ = w at ht
  cases ht with
  | pauses _ => exact absurd rfl he
  | resumes _ => exact nofun
  | shutsDown _ => exact nofun
  | _ => exact hm

/-- The executor after so many more jobs have come in. -/
def crowded (x : Executor σ J) (job : J) : Nat → Executor σ J
  | 0 => x
  | n + 1 => (x.crowded job n).submit job

theorem isResting_crowded (x : Executor σ J) (job : J) (n : Nat) :
    (x.crowded job n).isResting = x.isResting := by
  induction n with
  | zero => rfl
  | succ n ih => rw [crowded, isResting_submit, ih]

theorem mode_crowded (x : Executor σ J) (job : J) (n : Nat) : (x.crowded job n).mode = x.mode := by
  induction n with
  | zero => rfl
  | succ n ih =>
    rw [crowded, submit, ← ih]
    split <;> rfl

/-- Jobs come in, and nothing else happens. -/
def Course.crowding (run : Handler σ J) (x : Executor σ J) (job : J) : Course run x where
  state := x.crowded job
  event _ := .submit job
  start := rfl
  next _ := .step rfl

/-- At rest nobody is kept from moving. -/
theorem Course.fair_crowding (hx : x.isResting = true) (job : J) :
    (Course.crowding run x job).Fair := by
  intro e he n hcan
  have hrest : (x.crowded job n).isResting = true := by rw [isResting_crowded, hx]
  have hsome := hcan n (Nat.le_refl n)
  rw [crowding, step_of_isResting hrest he] at hsome
  cases hsome

/-- One step more in front of a course. -/
def Course.cons (h : x.step run e = some y) (c : Course run y) : Course run x where
  state
    | 0 => x
    | n + 1 => c.state n
  event
    | 0 => e
    | n + 1 => c.event n
  start := rfl
  next
    | 0 => .step (show x.step run e = some (c.state 0) by rw [c.start, h])
    | n + 1 => c.next n

theorem Course.Fair.cons (h : x.step run e = some y) {c : Course run y} (hc : c.Fair) :
    (c.cons h).Fair := by
  intro e' he' n hcan
  obtain ⟨m, hm, hmove⟩ := hc e' he' n fun m hm => hcan (m + 1) (by omega)
  exact ⟨m + 1, by omega, hmove⟩

/-- Steps without a pause that lead to rest go on as a fair course without one. -/
theorem exists_fair (job : J) (es : List (Event J)) (h : (x.after run es).any isResting = true)
    (hes : .pause ∉ es) (hm : x.mode ≠ .paused) :
    ∃ c : Course run x, c.Fair ∧ ∀ n, (c.state n).mode ≠ .paused := by
  induction es generalizing x with
  | nil =>
    refine ⟨.crowding run x job, Course.fair_crowding h job, ?_⟩
    intro n
    show (x.crowded job n).mode ≠ .paused
    rw [mode_crowded]
    exact hm
  | cons e es ih =>
    obtain ⟨y, hy, hrest⟩ := Option.any_eq_true .. |>.1 h
    obtain ⟨z, hz, hy⟩ := Option.bind_eq_some_iff.1 hy
    rw [List.mem_cons, not_or] at hes
    have hmz := unpaused_step hz (Ne.symm hes.1) hm
    obtain ⟨c, hfair, hmode⟩ := ih (by rw [hy]; exact hrest) hes.2 hmz
    refine ⟨c.cons hz, hfair.cons hz, ?_⟩
    intro n
    cases n with
    | zero => exact hm
    | succ n => exact hmode n

/-! ## All that is said of sleepers -/

/-- **No call is missed.**  Whatever happens, a worker that sleeps at the gate and has not
been called sleeps because of a pause, or is about to be called by who has ended it; a pause
that sleeps and has not been called waits for an active job.  Where all that can move moves
in the end, no worker sleeps on while there is no pause, and a pause returns while no job is
active. -/
theorem no_call_missed {workers : Nat} {store : σ} (hx : Stirred run workers store x) :
    (∀ (i : Nat) (t : Ticket J) (heard : Nat), x.workers[i]? = some (.asleep t heard) →
      ¬ heard < x.resumptions → x.mode = .paused ∨ ∃ a ∈ x.calls, a.owesWorkers = true) ∧
    (∀ (i heard : Nat), x.calls[i]? = some (.pauseAsleep heard) → ¬ heard < x.idlings →
      0 < x.active) ∧
    ∀ c : Course run x, c.Fair →
      ((∀ n, (c.state n).mode ≠ .paused) → ∀ i, ∃ n, ¬ (c.state n).SleepsAt i) ∧
      ((∀ n, (c.state n).active = 0) → ∀ (i : Nat) (a : Call), x.calls[i]? = some a →
        a.isPausing = true →
        ∃ n, (c.state n).calls[i]? = some .pauseReturned) := by
  refine ⟨?_, ?_, ?_⟩
  · intro i t heard hw huncalled
    obtain ⟨-, hreason⟩ := hx.attentive.gate _ (List.mem_of_getElem? hw) heard true rfl
    rcases hreason rfl with hcalled | hpaused | howed
    · exact absurd hcalled huncalled
    · exact .inl hpaused
    · exact .inr (List.countP_pos_iff.1 howed)
  · intro i heard hc huncalled
    obtain ⟨-, hreason⟩ := hx.attentive.pause _ (List.mem_of_getElem? hc) heard true rfl
    exact (hreason rfl).resolve_left huncalled
  · intro c hfair
    refine ⟨fun hmode i => hfair.wakes hx hmode i, ?_⟩
    intro hactive i a ha hpausing
    rw [← c.start] at ha
    exact hfair.returns hx hactive ha hpausing

/-- One job runs, the other one waits at the gate, and somebody who waits for the pause is
overtaken by somebody who resumes. -/
def overtaken : List (Event Nat) :=
  [.submit 3, .submit 4, .push 0, .push 1, .worker 0, .worker 0, .worker 0, .pause,
    .call 0, .call 0, .worker 1, .worker 1, .worker 1, .resume]

/-- The workers are called, and all that is left to do is done. -/
def caughtUp : List (Event Nat) :=
  .call 1 :: List.replicate 4 (.worker 0) ++ List.replicate 3 (.call 0) ++
    List.replicate 7 (.worker 1)

def overtakenExecutor : Executor Nat Nat := ((start 2 0).after adding overtaken).get rfl

theorem no_call_missed_overtaken :
    Stirred adding 2 0 overtakenExecutor ∧ overtakenExecutor.mode = .running ∧
      overtakenExecutor.workers[1]? = some (.asleep ⟨1, 4⟩ 0) ∧
      ¬ 0 < overtakenExecutor.resumptions ∧
      (∃ a ∈ overtakenExecutor.calls, a.owesWorkers = true) ∧
      overtakenExecutor.calls[0]? = some (.pauseAsleep 0) ∧ ¬ 0 < overtakenExecutor.idlings ∧
      0 < overtakenExecutor.active ∧
      ∃ c : Course adding overtakenExecutor, c.Fair ∧ ∃ n, ¬ (c.state n).SleepsAt 1 := by
  have hx : Stirred adding 2 0 overtakenExecutor := (Reachable.start.after overtaken rfl).stirred
  obtain ⟨hgate, hpause, hcourse⟩ := no_call_missed hx
  have howes := (hgate 1 ⟨1, 4⟩ 0 rfl (by decide)).resolve_left (by decide)
  have hactive := hpause 0 0 rfl (by decide)
  have hrest : (overtakenExecutor.after adding caughtUp).any isResting = true := rfl
  obtain ⟨c, hfair, hmode⟩ := exists_fair 0 caughtUp hrest (by decide) (by decide)
  exact ⟨hx, rfl, rfl, by decide, howes, rfl, by decide, hactive, c, hfair,
    (hcourse c hfair).1 hmode 1⟩

end Executor

end BucketCluster
