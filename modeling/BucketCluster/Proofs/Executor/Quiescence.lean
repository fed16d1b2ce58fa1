import BucketCluster.Proofs.Executor.Conservation

/-!
# What a pause guarantees

A job has started when it has passed the gate: from then on it counts as active,
whether or not its work has begun.  While an executor does not run no job starts, and
a pause that has returned leaves an executor at rest: nothing is active, and the
store stays as it is until somebody resumes.
-/

namespace BucketCluster.Executor

variable {σ J : Type}

/-! ## Paths -/

/-- Some steps, each of them allowed, lead from `x` to the executor. -/
inductive Path (run : Handler σ J) (allowed : Executor σ J → Executor σ J → Prop)
    (x : Executor σ J) : Executor σ J → Prop where
  | refl : Path run allowed x x
  | step {y z : Executor σ J} {e : Event J} :
      Path run allowed x y → y.step run e = some z → allowed y z → Path run allowed x z

/-- The step is one in which a paused executor begins to run again. -/
def Resumes (x y : Executor σ J) : Prop := x.mode = .paused ∧ y.mode = .running

/-- The job has passed the gate. -/
def HasStarted (x : Executor σ J) (n : Nat) : Prop :=
  n ∈ x.started ∨ ∃ t, .admitted t ∈ x.workers ∧ t.number = n

/-- No worker is between the gate and the end of a job. -/
def AtRest (x : Executor σ J) : Prop := ∀ a ∈ x.workers, a.isActive = false

/-- A job that is submitted gets in, and so does one that is on its way. -/
def TakesJobs (run : Handler σ J) (x : Executor σ J) : Prop :=
  (∀ job, ∃ y, x.step run (.submit job) = some y ∧
    y.submissions[x.submissions.length]? = some (.entering job)) ∧
  ∀ (n : Nat) job, x.submissions[n]? = some (.entering job) →
    ∃ y, x.step run (.push n) = some y ∧ y.submissions[n]? = some (.accepted job)

/-- A job that is submitted is refused at once. -/
def RefusesJobs (run : Handler σ J) (x : Executor σ J) : Prop :=
  ∀ job, ∃ y, x.step run (.submit job) = some y ∧
    y.reply? x.submissions.length = some (.error .shutdown)

variable {run : Handler σ J} {x y z : Executor σ J} {e : Event J} {w : Option (Ticket J × Outcome)}
  {workers : Nat} {store : σ}

theorem Reachable.path {allowed : Executor σ J → Executor σ J → Prop}
    (hx : Reachable run workers store x) (h : Path run allowed x y) :
    Reachable run workers store y := by
  induction h with
  | refl => exact hx
  | step _ hs _ ih => exact ih.step hs

/-! ## One step of an executor that does not run -/

/-- A worker's step starts no job unless it lets one through the gate. -/
theorem HasStarted.of_move {i n : Nat} {b : Worker J} (h : y.HasStarted n)
    (hw : y.workers = x.workers.set i b) (hb : ∀ t, b ≠ .admitted t)
    (hs : ∀ m ∈ y.started, x.HasStarted m) : x.HasStarted n := by
  rcases h with h | ⟨t, ht, hn⟩
  · exact hs n h
  · rw [hw] at ht
    rcases List.mem_or_eq_of_mem_set ht with ht | ht
    · exact .inr ⟨t, ht, hn⟩
    · exact absurd ht.symm (hb t)

theorem hasStarted_of_step (h : Transition run x e w y) (hm : x.mode ≠ .running) {n : Nat}
    (hn : y.HasStarted n) : x.HasStarted n := by
  have hold : ∀ m ∈ x.started, x.HasStarted m := fun m => .inl
  cases h with
  | admitted i t heard hw h => exact absurd h hm
  | began i t hw =>
    apply hn.of_move (x := x) rfl (by simp)
    intro m hmem
    rcases List.mem_append.1 hmem with hmem | hmem
    · exact .inl hmem
    · exact .inr ⟨t, List.mem_of_getElem? hw, (List.mem_singleton.1 hmem).symm⟩
  | popped i t rest hw hq => exact hn.of_move (x := x) rfl (by simp) hold
  | left i hw hq ho => exact hn.of_move (x := x) rfl (by simp) hold
  | listened i t hw => exact hn.of_move (x := x) rfl (by simp) hold
  | refused i t heard hw _ => exact hn.of_move (x := x) rfl (by simp) hold
  | slept i t heard hw _ => exact hn.of_move (x := x) rfl (by simp) hold
  | woke i t heard hw _ => exact hn.of_move (x := x) rfl (by simp) hold
  | answered i t hw => exact hn.of_move (x := x) rfl (by simp) hold
  | ended i t o s hw _ => exact hn.of_move (x := x) rfl (by simp) hold
  | replied i t r hw => exact hn.of_move (x := x) rfl (by simp) hold
  | finished i t hw => exact hn.of_move (x := x) rfl (by simp) hold
  | _ => exact hn

theorem AtRest.of_move {i : Nat} {b : Worker J} (hx : AtRest x) (hw : y.workers = x.workers.set i b)
    (hb : b.isActive = false) : AtRest y := by
  intro a ha
  rw [hw] at ha
  rcases List.mem_or_eq_of_mem_set ha with ha | rfl
  · exact hx a ha
  · exact hb

/-- At rest, a step of an executor that does not run leaves it at rest and its store as it is. -/
theorem atRest_step (h : Transition run x e w y) (hm : x.mode ≠ .running) (hx : AtRest x) :
    AtRest y ∧ y.store = x.store := by
  have busy : ∀ {i : Nat} {a : Worker J}, x.workers[i]? = some a → a.isActive = true → False :=
    fun hw ha => by
    rw [hx _ (List.mem_of_getElem? hw)] at ha
    cases ha
  cases h with
  | admitted i t heard hw h => exact absurd h hm
  | began i t hw => exact (busy hw rfl).elim
  | ended i t o s hw _ => exact (busy hw rfl).elim
  | replied i t r hw => exact (busy hw rfl).elim
  | finished i t hw => exact (busy hw rfl).elim
  | popped i t rest hw hq => exact ⟨hx.of_move rfl rfl, rfl⟩
  | left i hw hq ho => exact ⟨hx.of_move rfl rfl, rfl⟩
  | listened i t hw => exact ⟨hx.of_move rfl rfl, rfl⟩
  | refused i t heard hw _ => exact ⟨hx.of_move rfl rfl, rfl⟩
  | slept i t heard hw _ => exact ⟨hx.of_move rfl rfl, rfl⟩
  | woke i t heard hw _ => exact ⟨hx.of_move rfl rfl, rfl⟩
  | answered i t hw => exact ⟨hx.of_move rfl rfl, rfl⟩
  | _ => exact ⟨hx, rfl⟩

/-- Only a resume makes an executor run that does not. -/
theorem mode_step (h : Transition run x e w y) (hm : x.mode ≠ .running) (hr : ¬ Resumes x y) :
    y.mode ≠ .running := by
  cases h with
  | resumes h => exact absurd ⟨h, rfl⟩ hr
  | pauses h => exact absurd h hm
  | shutsDown h => simp
  | _ => exact hm

theorem shutdown_step (h : Transition run x e w y) (hm : x.mode = .shutdown) :
    y.mode = .shutdown := by
  cases h with
  | resumes h => rw [hm] at h; cases h
  | pauses h => rw [hm] at h; cases h
  | shutsDown h => rfl
  | _ => exact hm

theorem mode_of_pause (h : x.step run .pause = some y) : y.mode ≠ .running := by
  cases transition_of_step h with
  | pauses hm => simp
  | pausesIdly hm => exact hm

theorem paused_of_pause (hm : x.mode = .running) (h : x.step run .pause = some y) :
    y.mode = .paused ∧ ∀ n, y.HasStarted n → x.HasStarted n := by
  cases transition_of_step h with
  | pauses => exact ⟨rfl, fun _ => id⟩
  | pausesIdly hne => exact absurd hm hne

theorem not_resumes_step (h : Transition run x e w y) (he : e ≠ .resume) : ¬ Resumes x y := by
  rintro ⟨hx, hy⟩
  cases h with
  | resumes hm => exact he rfl
  | pauses hm => cases hy
  | shutsDown hm => cases hy
  | _ => exact Mode.noConfusion (hx.symm.trans hy)

/-! ## All paths on which nobody resumes -/

theorem Path.trans {allowed : Executor σ J → Executor σ J → Prop} (hx : Path run allowed x y)
    (hy : Path run allowed y z) : Path run allowed x z := by
  induction hy with
  | refl => exact hx
  | step _ hs ha ih => exact ih.step hs ha

theorem unresumed_after (es : List (Event J)) (he : .resume ∉ es) (h : x.after run es = some y) :
    Path run (fun y z => ¬ Resumes y z) x y := by
  induction es generalizing x with
  | nil => cases h; exact .refl
  | cons e es ih =>
    obtain ⟨z, hz, h⟩ := Option.bind_eq_some_iff.1 h
    rw [List.mem_cons, not_or] at he
    have hstep := not_resumes_step (transition_of_step hz) (Ne.symm he.1)
    exact (Path.refl.step hz hstep).trans (ih he.2 h)

theorem unresumed_path (h : Path run (fun y z => ¬ Resumes y z) x y) (hm : x.mode ≠ .running) :
    y.mode ≠ .running ∧ ∀ n, y.HasStarted n → x.HasStarted n := by
  induction h with
  | refl => exact ⟨hm, fun _ => id⟩
  | step _ hs hr ih =>
    have ht := transition_of_step hs
    exact ⟨mode_step ht ih.1 hr, fun n hn => ih.2 n (hasStarted_of_step ht ih.1 hn)⟩

theorem unresumed_atRest (h : Path run (fun y z => ¬ Resumes y z) x y) (hm : x.mode ≠ .running)
    (hx : AtRest x) : AtRest y ∧ y.store = x.store := by
  induction h with
  | refl => exact ⟨hx, rfl⟩
  | step hp hs _ ih =>
    obtain ⟨hrest, hstore⟩ := atRest_step (transition_of_step hs) (unresumed_path hp hm).1 ih.1
    exact ⟨hrest, hstore.trans ih.2⟩

theorem shutdown_path (h : Path run (fun _ _ => True) x y) (hm : x.mode = .shutdown) :
    y.mode = .shutdown ∧ ∀ n, y.HasStarted n → x.HasStarted n := by
  induction h with
  | refl => exact ⟨hm, fun _ => id⟩
  | step _ hs _ ih =>
    have ht := transition_of_step hs
    exact ⟨shutdown_step ht ih.1, fun n hn => ih.2 n (hasStarted_of_step ht (by simp [ih.1]) hn)⟩

/-! ## Submissions -/

theorem push_of_isOpen {n : Nat} {job : J} (hn : x.submissions[n]? = some (.entering job))
    (ho : x.queue.isOpen = true) :
    ∃ y, x.push n = some y ∧ y.submissions = x.submissions.set n (.accepted job) := by
  unfold push
  rw [hn]
  simp only [AdmissionQueue.push, if_pos ho]
  exact ⟨_, rfl, rfl⟩

theorem takesJobs (hx : Closing x) (hm : x.mode ≠ .shutdown) : TakesJobs run x := by
  have ho : x.queue.isOpen = true := by
    cases h : x.queue.isOpen with
    | true => rfl
    | false => exact absurd (hx.closed h) hm
  constructor
  · intro job
    refine ⟨_, rfl, ?_⟩
    unfold submit
    split
    · next h => exact absurd h hm
    · simp
  · intro n job hn
    have hlt := (List.getElem?_eq_some_iff.1 hn).1
    obtain ⟨y, hy, hsub⟩ := push_of_isOpen hn ho
    refine ⟨y, hy, ?_⟩
    rw [hsub, List.getElem?_set_self hlt]

theorem refusesJobs (hm : x.mode = .shutdown) : RefusesJobs run x := by
  intro job
  refine ⟨_, rfl, ?_⟩
  unfold submit reply?
  rw [hm]
  simp

/-! ## Rest -/

/-- With nothing active, every job that has started has been answered. -/
theorem timesReplied_of_atRest {log : List (Ticket J × Outcome)} (hx : Invariant workers log x)
    (hrest : AtRest x) {n : Nat} (hn : x.HasStarted n) : x.timesReplied n = 1 := by
  rcases hn with hn | ⟨t, ht, -⟩
  · have hacc := hx.recorded.started_accepted n hn
    have hstage := hx.staged n
    have hq : x.timesQueued n = 0 := by
      apply List.countP_eq_zero.2
      intro t ht h
      have hf := hx.recorded.waiting t ht
      exact hf.2 (by simpa using (beq_iff_eq.1 h) ▸ hn)
    have hh : x.timesHeld n = 0 := by
      apply List.countP_eq_zero.2
      intro a ha h
      obtain ⟨i, hi⟩ := List.getElem?_of_mem ha
      have hholds := hx.recorded.workers i a hi
      have hjob := beq_iff_eq.1 h
      cases a with
      | arrived t => exact hholds.2 (Option.some.inj hjob ▸ hn)
      | listening t _ => exact hholds.2 (Option.some.inj hjob ▸ hn)
      | asleep t _ => exact hholds.2 (Option.some.inj hjob ▸ hn)
      | refused t => exact hholds.1.2 (Option.some.inj hjob ▸ hn)
      | _ => cases hjob
    have hr : x.timesRunning n = 0 := by
      apply List.countP_eq_zero.2
      intro a ha h
      have hidle := hrest a ha
      have hjob := beq_iff_eq.1 h
      cases a with
      | admitted t => cases hidle
      | running t => cases hidle
      | handled t r => cases hidle
      | _ => cases hjob
    rw [hacc, Bool.toNat_true] at hstage
    omega
  · have := hrest _ ht
    cases this

theorem atRest_of_active (hx : Balanced x) (ha : x.active = 0) : AtRest x := by
  intro a hmem
  have h := List.countP_eq_zero.1 (hx.active ▸ ha) a hmem
  exact Bool.eq_false_iff.2 h

/-- The step in which a pause returns finds nothing active and changes nothing but the call. -/
theorem active_of_return (h : Transition run x e w y) {i : Nat}
    (hx : x.calls[i]? ≠ some .pauseReturned) (hy : y.calls[i]? = some .pauseReturned) :
    x.active = 0 ∧ y = x.setCall i .pauseReturned := by
  have added : ∀ {c : Call}, c ≠ .pauseReturned → (x.calls ++ [c])[i]? ≠ some .pauseReturned := by
    intro c hc h
    rw [List.getElem?_append] at h
    split at h
    · exact hx h
    · rw [List.getElem?_singleton] at h
      split at h
      · exact hc (Option.some.inj h)
      · cases h
  have moved : ∀ {j : Nat} {c : Call}, c ≠ .pauseReturned →
      (x.calls.set j c)[i]? ≠ some .pauseReturned := by
    intro j c hc h
    rcases getElem?_set_or h with ⟨h, -⟩ | h
    · exact hx h
    · exact hc h.symm
  cases h with
  | pauses hm => exact absurd hy (added (by simp))
  | pausesIdly hm => exact absurd hy (added (by simp))
  | resumes hm => exact absurd hy (added (by simp))
  | resumesIdly hm => exact absurd hy (added (by simp))
  | shutsDown hm => exact absurd hy (added (by simp))
  | shutsDownIdly hm => exact absurd hy (added (by simp))
  | pauseListened j hc => exact absurd hy (moved (by simp))
  | pauseReturned j heard hc ha =>
    by_cases hij : j = i
    · subst hij
      exact ⟨ha, rfl⟩
    · rw [setCall, List.getElem?_set_ne hij] at hy
      exact absurd hy hx
  | pauseSlept j heard hc ha => exact absurd hy (moved (by simp))
  | pauseWoke j heard hc hh => exact absurd hy (moved (by simp))
  | resumeNotified j hc => exact absurd hy (moved (by simp))
  | queueClosed j hc => exact absurd hy (moved (by simp))
  | shutdownNotified j hc => exact absurd hy (moved (by simp))
  | shutdownReturned j hc hj => exact absurd hy (moved (by simp))
  | _ => exact absurd hy hx

/-- **A pause gives rest.**  After a pause that stops an executor no job starts until somebody
resumes, and jobs are taken all the same.  A pause that returns with no resume on the way finds
every job that has started answered and nobody active, and from then on the store stays as it is
until somebody resumes.  A shutdown is for good. -/
theorem pause_gives_rest (hx : Reachable run workers store x) :
    (∀ y, x.mode = .running → x.step run .pause = some y → y.mode = .paused ∧
      ∀ z, Path run (fun y z => ¬ Resumes y z) y z →
        (∀ n, z.HasStarted n → x.HasStarted n) ∧
          (z.mode ≠ .shutdown → z.mode = .paused ∧ TakesJobs run z)) ∧
    (∀ y z u e, x.step run .pause = some y → Path run (fun y z => ¬ Resumes y z) y z →
      z.step run e = some u → z.calls[x.calls.length]? ≠ some .pauseReturned →
      u.calls[x.calls.length]? = some .pauseReturned →
        u.active = 0 ∧ AtRest u ∧ (∀ n, u.HasStarted n → u.timesReplied n = 1) ∧
          ∀ v, Path run (fun y z => ¬ Resumes y z) u v → v.store = u.store) ∧
    (x.mode = .shutdown → ∀ z, Path run (fun _ _ => True) x z →
      z.mode = .shutdown ∧ (∀ n, z.HasStarted n → x.HasStarted n) ∧ RefusesJobs run z) := by
  refine ⟨?_, ?_, ?_⟩
  · intro y hm hp
    obtain ⟨hym, hyx⟩ := paused_of_pause hm hp
    refine ⟨hym, ?_⟩
    intro z hz
    obtain ⟨hzm, hstarted⟩ := unresumed_path hz (by rw [hym]; decide)
    obtain ⟨log, hlog⟩ := exists_execution ((hx.step hp).path hz)
    refine ⟨fun n hn => hyx n (hstarted n hn), fun hs => ⟨?_, takesJobs hlog.invariant.closing hs⟩⟩
    cases hmode : z.mode with
    | running => exact absurd hmode hzm
    | paused => rfl
    | shutdown => exact absurd hmode hs
  · intro y z u e hp hz hu hc hr
    have hym := mode_of_pause hp
    have hzm := (unresumed_path hz hym).1
    have hreach := ((hx.step hp).path hz).step hu
    obtain ⟨log, hlog⟩ := exists_execution hreach
    obtain ⟨ha, rfl⟩ := active_of_return (transition_of_step hu) hc hr
    have hrest := atRest_of_active hlog.invariant.balanced ha
    exact ⟨ha, hrest, fun n hn => timesReplied_of_atRest hlog.invariant hrest hn,
      fun v hv => (unresumed_atRest hv hzm hrest).2⟩
  · intro hm z hz
    obtain ⟨hmode, hstarted⟩ := shutdown_path hz hm
    exact ⟨hmode, hstarted, refusesJobs hmode⟩

/-- Of two jobs in the queue one has passed the gate. -/
def underWay : List (Event Nat) :=
  [.submit 3, .submit 4, .push 0, .push 1, .worker 0, .worker 0, .worker 0]

/-- The pause sleeps until the job is done, and the other job waits at the gate. -/
def untilDone : List (Event Nat) :=
  [.call 0, .call 0, .worker 0, .worker 0, .worker 0, .worker 0, .worker 0, .worker 0, .worker 0,
    .call 0, .call 0]

theorem pause_gives_rest_underWay :
    ∃ x y z u, (start 1 0).after adding underWay = some x ∧ x.mode = .running ∧ x.active = 1 ∧
      x.step adding .pause = some y ∧ y.after adding untilDone = some z ∧
      z.step adding (.call 0) = some u ∧ u.store = 3 ∧ u.queued = 1 ∧ u.active = 0 ∧ AtRest u ∧
      (∀ n, u.HasStarted n → u.timesReplied n = 1) ∧
      ∀ v, Path adding (fun y z => ¬ Resumes y z) u v → v.store = u.store := by
  have hx : Reachable adding 1 0 _ := Reachable.start.after underWay rfl
  refine ⟨_, _, _, _, rfl, rfl, rfl, rfl, rfl, rfl, rfl, rfl, ?_⟩
  exact (pause_gives_rest hx).2.1 _ _ _
    (.call 0) rfl (unresumed_after untilDone (by decide) rfl) rfl (by decide) rfl

end BucketCluster.Executor
