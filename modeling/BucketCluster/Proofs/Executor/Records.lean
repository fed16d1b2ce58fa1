import BucketCluster.Proofs.Executor.Accounting

/-!
# What an executor has recorded

`Recorded` ties the tickets that travel through an executor to the submissions, to
the list of started jobs, to the log of the work done and to the replies: work on a
job begins once, ends once, and is what the reply of the job tells of.

The one step in which the stages matter is the beginning of work: no other worker
and no waiting ticket has the same job (`Staged.alone`).
-/

namespace BucketCluster.Executor

variable {σ J : Type}

/-- The job of the ticket got into the queue under the number of the ticket. -/
def Accepted (x : Executor σ J) (t : Ticket J) : Prop :=
  x.submissions[t.number]? = some (.accepted t.job)

/-- The job is in the queue or beyond, and work on it has not begun. -/
def Fresh (x : Executor σ J) (t : Ticket J) : Prop := x.Accepted t ∧ t.number ∉ x.started

/-- What is known of the job that a worker holds. -/
def Holds (x : Executor σ J) (log : List (Ticket J × Outcome)) : Worker J → Prop
  | .arrived t => x.Fresh t
  | .listening t _ => x.Fresh t
  | .asleep t _ => x.Fresh t
  | .refused t => x.Fresh t ∧ x.mode = .shutdown
  | .admitted t => x.Fresh t
  | .running t => x.Accepted t ∧ t.number ∈ x.started ∧ t.number ∉ log.map (·.1.number)
  | .handled t r => x.Accepted t ∧ t.number ∈ x.started ∧ ∃ o, (t, o) ∈ log ∧ r = o.reply
  | _ => True

/-- The reply to a job is the outcome of its work; without work there is a shutdown. -/
def Answers (x : Executor σ J) (log : List (Ticket J × Outcome)) (n : Nat) (r : Reply) : Prop :=
  (n ∈ x.started ∧ ∃ t o, (t, o) ∈ log ∧ t.number = n ∧ r = o.reply) ∨
    (n ∉ x.started ∧ r = .error .shutdown ∧ x.mode = .shutdown)

/-- Tickets, started jobs, work and replies fit together. -/
structure Recorded (log : List (Ticket J × Outcome)) (x : Executor σ J) : Prop where
  waiting : ∀ t ∈ x.queue.waiting, x.Fresh t
  workers : ∀ (i : Nat) (a : Worker J), x.workers[i]? = some a → x.Holds log a
  started_nodup : x.started.Nodup
  started_accepted : ∀ n ∈ x.started, x.isAccepted n = true
  log_nodup : (log.map (·.1.number)).Nodup
  logged : ∀ r ∈ log, x.Accepted r.1 ∧ r.1.number ∈ x.started
  replies : ∀ n r, (n, r) ∈ x.replies → x.Answers log n r

variable {run : Handler σ J} {x y : Executor σ J} {e : Event J} {w : Option (Ticket J × Outcome)}
  {log : List (Ticket J × Outcome)}

theorem Accepted.isAccepted {t : Ticket J} (h : x.Accepted t) : x.isAccepted t.number = true := by
  unfold Accepted at h
  unfold Executor.isAccepted
  rw [h]
  rfl

/-! ## Steps that begin and end no work -/

/-- Accepted jobs stay accepted, no work begins, and a shutdown is for good. -/
structure Keeps (x y : Executor σ J) : Prop where
  accepted : ∀ (n : Nat) (job : J),
    x.submissions[n]? = some (.accepted job) → y.submissions[n]? = some (.accepted job)
  started : y.started = x.started
  mode : x.mode = .shutdown → y.mode = .shutdown

theorem Fresh.keep (hk : Keeps x y) {t : Ticket J} (h : x.Fresh t) : y.Fresh t :=
  ⟨hk.accepted _ _ h.1, by rw [hk.started]; exact h.2⟩

theorem Holds.keep (hk : Keeps x y) {a : Worker J} (h : x.Holds log a) : y.Holds log a := by
  cases a with
  | arrived t => exact Fresh.keep hk h
  | listening t _ => exact Fresh.keep hk h
  | asleep t _ => exact Fresh.keep hk h
  | refused t => exact ⟨Fresh.keep hk h.1, hk.mode h.2⟩
  | admitted t => exact Fresh.keep hk h
  | running t =>
    obtain ⟨h1, h2, h3⟩ := h
    exact ⟨hk.accepted _ _ h1, by rw [hk.started]; exact h2, h3⟩
  | handled t r =>
    obtain ⟨h1, h2, h3⟩ := h
    exact ⟨hk.accepted _ _ h1, by rw [hk.started]; exact h2, h3⟩
  | idle => trivial
  | replied t => trivial
  | stopped => trivial

theorem Answers.keep (hk : Keeps x y) {n : Nat} {r : Reply} (h : x.Answers log n r) :
    y.Answers log n r := by
  unfold Answers
  rw [hk.started]
  rcases h with h | ⟨h1, h2, h3⟩
  · exact .inl h
  · exact .inr ⟨h1, h2, hk.mode h3⟩

theorem Keeps.isAccepted (hk : Keeps x y) {n : Nat} (h : x.isAccepted n = true) :
    y.isAccepted n = true := by
  unfold Executor.isAccepted at h ⊢
  obtain ⟨s, hs, ha⟩ := Option.any_eq_true .. |>.1 h
  cases s with
  | accepted job => rw [hk.accepted n job hs]; rfl
  | entering job => cases ha
  | rejected job => cases ha

/-- What is recorded stays right if what is new in the queue, at the workers and among the
replies is. -/
theorem Recorded.keep (hx : Recorded log x) (hk : Keeps x y)
    (hq : ∀ t ∈ y.queue.waiting, t ∈ x.queue.waiting ∨ y.Fresh t)
    (hw : ∀ (i : Nat) (a : Worker J), y.workers[i]? = some a →
      x.workers[i]? = some a ∨ y.Holds log a)
    (hr : ∀ n r, (n, r) ∈ y.replies → (n, r) ∈ x.replies ∨ y.Answers log n r) : Recorded log y where
  waiting t ht := (hq t ht).elim (fun h => Fresh.keep hk (hx.waiting t h)) id
  workers i a ha := (hw i a ha).elim (fun h => Holds.keep hk (hx.workers i a h)) id
  started_nodup := by rw [hk.started]; exact hx.started_nodup
  started_accepted n hn := by rw [hk.started] at hn; exact hk.isAccepted (hx.started_accepted n hn)
  log_nodup := hx.log_nodup
  logged r hr := by
    obtain ⟨h1, h2⟩ := hx.logged r hr
    exact ⟨hk.accepted _ _ h1, by rw [hk.started]; exact h2⟩
  replies n r h := (hr n r h).elim (fun h => Answers.keep hk (hx.replies n r h)) id

/-- What is recorded stays right if one worker takes a step and nothing else happens. -/
theorem Recorded.move (hx : Recorded log x) (hk : Keeps x y) {i : Nat} {b : Worker J}
    (hw : y.workers = x.workers.set i b) (hb : y.Holds log b)
    (hq : ∀ t ∈ y.queue.waiting, t ∈ x.queue.waiting)
    (hr : ∀ n r, (n, r) ∈ y.replies → (n, r) ∈ x.replies ∨ y.Answers log n r) : Recorded log y := by
  refine hx.keep hk (fun t ht => .inl (hq t ht)) ?_ hr
  intro j a ha
  rw [hw] at ha
  rcases getElem?_set_or ha with ⟨h, _⟩ | rfl
  · exact .inl h
  · exact .inr hb

theorem keeps_append (x : Executor σ J) (s : Submission J) (q : Nat) :
    Keeps x { x with submissions := x.submissions ++ [s], queued := q } :=
  ⟨fun n _ h => by rw [List.getElem?_append_left (List.getElem?_eq_some_iff.1 h).1]; exact h, rfl,
    id⟩

theorem accepted_set {m n : Nat} {job job' : J} (hs : x.submissions[m]? = some (.entering job))
    (s : Submission J) (h : x.submissions[n]? = some (.accepted job')) :
    (x.submissions.set m s)[n]? = some (.accepted job') := by
  have hmn : m ≠ n := by
    rintro rfl
    rw [hs] at h
    cases h
  rw [List.getElem?_set_ne hmn]
  exact h

/-! ## The beginning and the end of work -/

/-- A job that a worker holds or runs is nowhere else. -/
theorem Staged.alone (hx : Staged x) {i : Nat} {a : Worker J} {n : Nat}
    (ha : x.workers[i]? = some a) (hn : a.heldJob? = some n ∨ a.runningJob? = some n) :
    x.timesQueued n = 0 ∧ x.timesReplied n = 0 ∧
      ∀ (j : Nat) (b : Worker J), i ≠ j → x.workers[j]? = some b → b.heldJob? ≠ some n ∧
        b.runningJob? ≠ some n := by
  have hs := hx n
  have hle := Bool.toNat_le (x.isAccepted n)
  have hheld : ∀ {j : Nat} {b : Worker J}, x.workers[j]? = some b → b.heldJob? = some n →
      0 < x.timesHeld n :=
    fun hb h =>
    List.countP_pos_iff.2 ⟨_, List.mem_of_getElem? hb, by simp [h]⟩
  have hruns : ∀ {j : Nat} {b : Worker J}, x.workers[j]? = some b → b.runningJob? = some n →
    0 < x.timesRunning n := fun hb h =>
    List.countP_pos_iff.2 ⟨_, List.mem_of_getElem? hb, by simp [h]⟩
  have hpos : 0 < x.timesHeld n + x.timesRunning n := by
    rcases hn with h | h
    · have := hheld ha h
      omega
    · have := hruns ha h
      omega
  refine ⟨by omega, by omega, fun j b hij hb => ⟨?_, ?_⟩⟩
  · intro hbn
    have h1 := hheld hb hbn
    rcases hn with h | h
    · have h2 : 2 ≤ x.timesHeld n := two_le_countP hij ha hb (by simp [h]) (by simp [hbn])
      omega
    · have := hruns ha h
      omega
  · intro hbn
    have h1 := hruns hb hbn
    rcases hn with h | h
    · have := hheld ha h
      omega
    · have h2 : 2 ≤ x.timesRunning n := two_le_countP hij ha hb (by simp [h]) (by simp [hbn])
      omega

theorem ne_of_timesQueued {n : Nat} (h : x.timesQueued n = 0) {t : Ticket J}
    (ht : t ∈ x.queue.waiting) : t.number ≠ n := by
  have := List.countP_eq_zero.1 h t ht
  simpa using this

theorem ne_of_timesReplied {n m : Nat} {r : Reply} (h : x.timesReplied n = 0)
    (hr : (m, r) ∈ x.replies) : m ≠ n := by
  have := List.countP_eq_zero.1 h (m, r) hr
  simpa using this

theorem recorded_began {i : Nat} {t : Ticket J} (hs : Staged x) (hx : Recorded log x)
    (hw : x.workers[i]? = some (.admitted t)) :
    Recorded log { x.setWorker i (.running t) with started := x.started ++ [t.number] } := by
  obtain ⟨hq, hr, hothers⟩ := hs.alone (n := t.number) hw (.inr rfl)
  obtain ⟨hacc, hnew⟩ : x.Fresh t := hx.workers i _ hw
  have fresh : ∀ {u : Ticket J}, u.number ≠ t.number → x.Fresh u →
      u.number ∉ x.started ++ [t.number] := fun hne hu h => by
    rcases List.mem_append.1 h with h | h
    · exact hu.2 h
    · exact hne (by simpa using h)
  constructor
  · intro u hu
    exact ⟨(hx.waiting u hu).1, fresh (ne_of_timesQueued hq hu) (hx.waiting u hu)⟩
  · intro j a ha
    rcases getElem?_set_or ha with ⟨ha, hij⟩ | rfl
    · have hh := hx.workers j a ha
      have hne := hothers j a hij ha
      cases a with
      | arrived u => exact ⟨hh.1, fresh (fun h => hne.1 (congrArg some h)) hh⟩
      | listening u _ => exact ⟨hh.1, fresh (fun h => hne.1 (congrArg some h)) hh⟩
      | asleep u _ => exact ⟨hh.1, fresh (fun h => hne.1 (congrArg some h)) hh⟩
      | refused u => exact ⟨⟨hh.1.1, fresh (fun h => hne.1 (congrArg some h)) hh.1⟩, hh.2⟩
      | admitted u => exact ⟨hh.1, fresh (fun h => hne.2 (congrArg some h)) hh⟩
      | running u => exact ⟨hh.1, List.mem_append_left _ hh.2.1, hh.2.2⟩
      | handled u r => exact ⟨hh.1, List.mem_append_left _ hh.2.1, hh.2.2⟩
      | idle => trivial
      | replied u => trivial
      | stopped => trivial
    · refine ⟨hacc, by simp, fun h => hnew ?_⟩
      obtain ⟨r, hr, he⟩ := List.mem_map.1 h
      rw [← he]
      exact (hx.logged r hr).2
  · rw [List.nodup_append]
    refine ⟨hx.started_nodup, by simp, ?_⟩
    intro a ha b hb hab
    simp only [List.mem_singleton] at hb
    exact hnew (hb ▸ hab ▸ ha)
  · intro n hn
    rcases List.mem_append.1 hn with hn | hn
    · exact hx.started_accepted n hn
    · rw [List.mem_singleton.1 hn]
      exact hacc.isAccepted
  · exact hx.log_nodup
  · exact fun r hr => ⟨(hx.logged r hr).1, List.mem_append_left _ (hx.logged r hr).2⟩
  · intro n r hnr
    rcases hx.replies n r hnr with ⟨h1, h2⟩ | ⟨h1, h2, h3⟩
    · exact .inl ⟨List.mem_append_left _ h1, h2⟩
    · refine .inr ⟨?_, h2, h3⟩
      intro h
      rcases List.mem_append.1 h with h | h
      · exact h1 h
      · exact ne_of_timesReplied hr hnr (List.mem_singleton.1 h)

theorem recorded_ended {i : Nat} {t : Ticket J} {o : Outcome} {s : σ} (hs : Staged x)
    (hx : Recorded log x) (hw : x.workers[i]? = some (.running t)) :
    Recorded (log ++ [(t, o)]) { x.setWorker i (.handled t o.reply) with store := s } := by
  obtain ⟨-, -, hothers⟩ := hs.alone (n := t.number) hw (.inr rfl)
  obtain ⟨hacc, hst, hnew⟩ := hx.workers i _ hw
  constructor
  · exact hx.waiting
  · intro j a ha
    rcases getElem?_set_or ha with ⟨ha, hij⟩ | rfl
    · have hh := hx.workers j a ha
      have hne := hothers j a hij ha
      cases a with
      | running u =>
        refine ⟨hh.1, hh.2.1, ?_⟩
        intro h
        rw [List.map_append] at h
        rcases List.mem_append.1 h with h | h
        · exact hh.2.2 h
        · exact hne.2 (congrArg some (List.mem_singleton.1 h))
      | handled u r =>
        obtain ⟨h1, h2, o', h3, h4⟩ := hh
        exact ⟨h1, h2, o', List.mem_append_left _ h3, h4⟩
      | arrived u => exact hh
      | listening u _ => exact hh
      | asleep u _ => exact hh
      | refused u => exact hh
      | admitted u => exact hh
      | idle => trivial
      | replied u => trivial
      | stopped => trivial
    · exact ⟨hacc, hst, o, by simp, rfl⟩
  · exact hx.started_nodup
  · exact hx.started_accepted
  · rw [List.map_append, List.nodup_append]
    refine ⟨hx.log_nodup, by simp, ?_⟩
    intro a ha b hb hab
    simp only [List.map_cons, List.map_nil, List.mem_singleton] at hb
    exact hnew (hb ▸ hab ▸ ha)
  · intro r hr
    rcases List.mem_append.1 hr with hr | hr
    · exact hx.logged r hr
    · rw [List.mem_singleton.1 hr]
      exact ⟨hacc, hst⟩
  · intro n r hnr
    rcases hx.replies n r hnr with ⟨h1, u, o', h2, h3⟩ | h
    · exact .inl ⟨h1, u, o', List.mem_append_left _ h2, h3⟩
    · exact .inr h

/-! ## All steps -/

theorem recorded_start (workers : Nat) (store : σ) :
    Recorded [] (start (J := J) workers store) := by
  constructor
  · intro t ht
    cases ht
  · intro i a ha
    simp only [start, List.getElem?_replicate] at ha
    split at ha
    · cases ha; trivial
    · cases ha
  · exact List.nodup_nil
  · intro n hn
    cases hn
  · exact List.nodup_nil
  · intro r hr
    cases hr
  · intro n r hr
    cases hr

theorem recorded_step (h : Transition run x e w y) (hs : Staged x) (hx : Recorded log x) :
    Recorded (log ++ w.toList) y := by
  cases h
  case ended i t o s hw hr => exact recorded_ended hs hx hw
  -- in all other steps no work ends
  all_goals rw [Option.toList_none, List.append_nil]
  case began i t hw => exact recorded_began hs hx hw
  case counted job hm =>
    exact hx.keep (keeps_append x _ _) (fun _ => .inl) (fun _ _ => .inl) (fun _ _ => .inl)
  case turnedAway job hm =>
    exact hx.keep (keeps_append x _ _) (fun _ => .inl) (fun _ _ => .inl) (fun _ _ => .inl)
  case pushed n job hn ho =>
    have hk : Keeps x { x with
        queue := { x.queue with waiting := x.queue.waiting ++ [⟨n, job⟩] }
        submissions := x.submissions.set n (.accepted job)
        pushed := x.pushed ++ [n] } := ⟨fun _ _ => accepted_set hn _, rfl, id⟩
    refine hx.keep hk ?_ (fun _ _ => .inl) (fun _ _ => .inl)
    intro t ht
    rcases List.mem_append.1 ht with ht | ht
    · exact .inl ht
    · rw [List.mem_singleton.1 ht]
      refine .inr ⟨?_, ?_⟩
      · show (x.submissions.set n (.accepted job))[n]? = _
        rw [List.getElem?_set_self (List.getElem?_eq_some_iff.1 hn).1]
      · intro hst
        have := hx.started_accepted n hst
        rw [isAccepted, hn] at this
        cases this
  case handedBack n job hn ho =>
    exact hx.keep ⟨fun _ _ => accepted_set hn _, rfl, id⟩ (fun _ => .inl) (fun _ _ => .inl)
      (fun _ _ => .inl)
  case popped i t rest hw hq =>
    refine hx.move ⟨fun _ _ => id, rfl, id⟩ rfl ?_ ?_ (fun _ _ => .inl)
    · exact hx.waiting t (by rw [hq]; exact List.mem_cons_self)
    · intro u hu
      rw [hq]
      exact List.mem_cons_of_mem t hu
  case left i hw hq ho =>
    exact hx.move ⟨fun _ _ => id, rfl, id⟩ rfl trivial (fun _ => id) (fun _ _ => .inl)
  case listened i t hw =>
    exact hx.move ⟨fun _ _ => id, rfl, id⟩ rfl (hx.workers i _ hw) (fun _ => id) (fun _ _ => .inl)
  case slept i t heard hw hm =>
    exact hx.move ⟨fun _ _ => id, rfl, id⟩ rfl (hx.workers i _ hw) (fun _ => id) (fun _ _ => .inl)
  case woke i t heard hw hc =>
    exact hx.move ⟨fun _ _ => id, rfl, id⟩ rfl (hx.workers i _ hw) (fun _ => id) (fun _ _ => .inl)
  case admitted i t heard hw hm =>
    exact hx.move ⟨fun _ _ => id, rfl, id⟩ rfl (hx.workers i _ hw) (fun _ => id) (fun _ _ => .inl)
  case refused i t heard hw hm =>
    exact hx.move ⟨fun _ _ => id, rfl, id⟩ rfl ⟨hx.workers i _ hw, hm⟩ (fun _ => id)
      (fun _ _ => .inl)
  case answered i t hw =>
    obtain ⟨hf, hm⟩ := hx.workers i _ hw
    refine hx.move ⟨fun _ _ => id, rfl, id⟩ rfl trivial (fun _ => id) ?_
    intro n r hnr
    rcases List.mem_append.1 hnr with h | h
    · exact .inl h
    · cases List.mem_singleton.1 h
      exact .inr (.inr ⟨hf.2, rfl, hm⟩)
  case replied i t r hw =>
    obtain ⟨-, hst, o, ho, hr⟩ := hx.workers i _ hw
    refine hx.move ⟨fun _ _ => id, rfl, id⟩ rfl trivial (fun _ => id) ?_
    intro n r' hnr
    rcases List.mem_append.1 hnr with h | h
    · exact .inl h
    · cases List.mem_singleton.1 h
      exact .inr (.inl ⟨hst, t, o, ho, rfl, hr⟩)
  case finished i t hw =>
    exact hx.move ⟨fun _ _ => id, rfl, id⟩ rfl trivial (fun _ => id) (fun _ _ => .inl)
  case pauses hm =>
    exact hx.keep ⟨fun _ _ => id, rfl, fun h => by rw [hm] at h; cases h⟩ (fun _ => .inl)
      (fun _ _ => .inl) (fun _ _ => .inl)
  case resumes hm =>
    exact hx.keep ⟨fun _ _ => id, rfl, fun h => by rw [hm] at h; cases h⟩ (fun _ => .inl)
      (fun _ _ => .inl) (fun _ _ => .inl)
  case shutsDown hm =>
    exact hx.keep ⟨fun _ _ => id, rfl, fun _ => rfl⟩ (fun _ => .inl) (fun _ _ => .inl)
      (fun _ _ => .inl)
  all_goals
    exact hx.keep ⟨fun _ _ => id, rfl, id⟩ (fun _ => .inl) (fun _ _ => .inl) (fun _ _ => .inl)

/-! ## Closing -/

/-- The call has shut the executor down and not returned. -/
def closes : Call → Bool
  | .shutdownEntered => true
  | .shutdownClosed => true
  | .shutdownJoining => true
  | _ => false

/-- Only a shutdown closes the queue, and workers leave only when it is closed and empty. -/
structure Closing (x : Executor σ J) : Prop where
  calls : ∀ c ∈ x.calls, closes c = true → x.mode = .shutdown
  closed : x.queue.isOpen = false → x.mode = .shutdown
  stopped : .stopped ∈ x.workers → x.queue.waiting = [] ∧ x.queue.isOpen = false

theorem closing_start (workers : Nat) (store : σ) : Closing (start (J := J) workers store) := by
  constructor
  · intro c hc
    cases hc
  · intro h
    cases h
  · intro h
    have := (List.mem_replicate.1 h).2
    cases this

/-- A step of one worker that does not leave, and that takes nothing from the queue but its head. -/
theorem Closing.move (hx : Closing x) {i : Nat} {b : Worker J} (hw : y.workers = x.workers.set i b)
    (hb : b ≠ .stopped) (hm : y.mode = x.mode) (hc : y.calls = x.calls)
    (ho : y.queue.isOpen = x.queue.isOpen) (hq : x.queue.waiting = [] → y.queue.waiting = []) :
    Closing y := by
  constructor
  · rw [hc, hm]
    exact hx.calls
  · rw [ho, hm]
    exact hx.closed
  · intro h
    rw [hw] at h
    rw [ho]
    rcases List.mem_or_eq_of_mem_set h with h | h
    · exact ⟨hq (hx.stopped h).1, (hx.stopped h).2⟩
    · exact absurd h.symm hb

/-- A new call that does not close the executor. -/
theorem Closing.addCall (hx : Closing x) {c : Call} (hc : closes c = false)
    (hm : x.mode = .shutdown → y.mode = .shutdown) (hy : y.calls = x.calls ++ [c])
    (hw : y.workers = x.workers) (hq : y.queue = x.queue) : Closing y := by
  constructor
  · intro a ha hac
    rw [hy] at ha
    rcases List.mem_append.1 ha with ha | ha
    · exact hm (hx.calls a ha hac)
    · rw [List.mem_singleton.1 ha, hc] at hac
      cases hac
  · rw [hq]
    exact fun h => hm (hx.closed h)
  · rw [hw, hq]
    exact hx.stopped

/-- A step of a call that keeps the mode and the queue. -/
theorem Closing.call (hx : Closing x) {i : Nat} {c d : Call} (hc : x.calls[i]? = some c)
    (hd : closes d = true → closes c = true) (hy : y.calls = x.calls.set i d) (hm : y.mode = x.mode)
    (hw : y.workers = x.workers) (hq : y.queue = x.queue) : Closing y := by
  constructor
  · intro a ha hac
    rw [hy] at ha
    rw [hm]
    rcases List.mem_or_eq_of_mem_set ha with ha | rfl
    · exact hx.calls a ha hac
    · exact hx.calls c (List.mem_of_getElem? hc) (hd hac)
  · rw [hq, hm]
    exact hx.closed
  · rw [hw, hq]
    exact hx.stopped

theorem closing_step (h : Transition run x e w y) (hx : Closing x) : Closing y := by
  cases h with
  | pushed n job hn ho =>
    refine ⟨hx.calls, hx.closed, ?_⟩
    intro h
    rw [(hx.stopped h).2] at ho
    cases ho
  | left i hw hq ho =>
    exact ⟨hx.calls, hx.closed, fun _ => ⟨hq, ho⟩⟩
  | popped i t rest hw hq =>
    exact hx.move rfl (by simp) rfl rfl rfl (fun h => by rw [hq] at h; cases h)
  | queueClosed i hc =>
    have hm := hx.calls _ (List.mem_of_getElem? hc) rfl
    refine ⟨fun _ _ _ => hm, fun _ => hm, fun h => ⟨(hx.stopped h).1, rfl⟩⟩
  | admitted i t heard hw hm => exact hx.move rfl (by simp) rfl rfl rfl id
  | refused i t heard hw hm => exact hx.move rfl (by simp) rfl rfl rfl id
  | listened i t hw => exact hx.move rfl (by simp) rfl rfl rfl id
  | slept i t heard hw hm => exact hx.move rfl (by simp) rfl rfl rfl id
  | woke i t heard hw hc => exact hx.move rfl (by simp) rfl rfl rfl id
  | answered i t hw => exact hx.move rfl (by simp) rfl rfl rfl id
  | began i t hw => exact hx.move rfl (by simp) rfl rfl rfl id
  | ended i t o s hw hr => exact hx.move rfl (by simp) rfl rfl rfl id
  | replied i t r hw => exact hx.move rfl (by simp) rfl rfl rfl id
  | finished i t hw => exact hx.move rfl (by simp) rfl rfl rfl id
  | counted job hm => exact ⟨hx.calls, hx.closed, hx.stopped⟩
  | turnedAway job hm => exact ⟨hx.calls, hx.closed, hx.stopped⟩
  | handedBack n job hn ho => exact ⟨hx.calls, hx.closed, hx.stopped⟩
  | pauses hm => exact hx.addCall rfl (fun h => by rw [hm] at h; cases h) rfl rfl rfl
  | pausesIdly hm => exact hx.addCall rfl id rfl rfl rfl
  | resumes hm => exact hx.addCall rfl (fun h => by rw [hm] at h; cases h) rfl rfl rfl
  | resumesIdly hm => exact hx.addCall rfl id rfl rfl rfl
  | shutsDown hm => exact ⟨fun _ _ _ => rfl, fun _ => rfl, hx.stopped⟩
  | shutsDownIdly hm => exact hx.addCall rfl id rfl rfl rfl
  | pauseListened i hc => exact hx.call hc (fun h => by cases h) rfl rfl rfl rfl
  | pauseReturned i heard hc ha => exact hx.call hc (fun h => by cases h) rfl rfl rfl rfl
  | pauseSlept i heard hc ha => exact hx.call hc (fun h => by cases h) rfl rfl rfl rfl
  | pauseWoke i heard hc hh => exact hx.call hc (fun h => by cases h) rfl rfl rfl rfl
  | resumeNotified i hc => exact hx.call hc (fun h => by cases h) rfl rfl rfl rfl
  | shutdownNotified i hc => exact hx.call hc (fun _ => rfl) rfl rfl rfl rfl
  | shutdownReturned i hc hj => exact hx.call hc (fun _ => rfl) rfl rfl rfl rfl

end BucketCluster.Executor
