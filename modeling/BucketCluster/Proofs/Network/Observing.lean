import BucketCluster.Network.Settle
import BucketCluster.Proofs.Network.Sending

/-!
# Runs with notes

A run is `observe`d together with notes: of the jobs that are handed out for one
request, and of all work that ends.  Work is noted where it is done, by the number of
its job: the executors that have been started at some time and have gone their way
since then (`Executes`) never end the work on a job twice (`Logs.not_mem`), and
nothing but work changes a store (`done_of_store_ne`).
-/

namespace BucketCluster

/-! ## Notes -/

/-- What is noted down of a step. -/
inductive Note where
  /-- The send in this place has become the job of this number at this node. -/
  | handed (place : Nat) (node : String) (number : Nat)
  /-- The work on the job of this number at this node has ended. -/
  | done (node : String) (number : Nat)
deriving DecidableEq

namespace Network

/-- The note of a step: of jobs that are handed out for request `i`, and of work on any job. -/
def note? (n : Network) (i : Nat) : Event → Option Note
  | .node name e => do
    let x ← n.processors.get? name
    let (t, _) ← x.work Store.handler e
    some (.done name t.number)
  | .send i' j =>
    if i' = i then do
      let q ← n.requests[i]?
      let s ← q.sends[j]?
      match n.dispatch s.node s.command with
      | .ok (number, _) => some (.handed j s.node.name number)
      | .error _ => none
    else none
  | .request _ => none
  | .receive .. => none
  | .fail .. => none
  | .cancel .. => none

/-- The network after the given steps, with the notes of all of them. -/
def observe (n : Network) (i : Nat) : List Event → Option (List Note × Network)
  | [] => some ([], n)
  | ev :: evs => do
    let m ← n.step ev
    let (more, n') ← m.observe i evs
    some ((n.note? i ev).toList ++ more, n')

theorem of_observe_cons {n n' : Network} {i : Nat} {ev : Event} {evs : List Event}
    {notes : List Note} (h : n.observe i (ev :: evs) = some (notes, n')) :
    ∃ m more, n.step ev = some m ∧ m.observe i evs = some (more, n') ∧
      notes = (n.note? i ev).toList ++ more := by
  obtain ⟨m, hm, h⟩ := Option.bind_eq_some_iff.1 h
  obtain ⟨⟨more, n''⟩, hmore, h⟩ := Option.bind_eq_some_iff.1 h
  cases h
  exact ⟨m, more, hm, hmore, rfl⟩

/-- Every node has an executor that has been started at some time and has gone its way
since then. -/
def Executes (n : Network) : Prop :=
  ∀ name x, n.processors.get? name = some x → ∃ workers store,
    Executor.Reachable Store.handler workers store x

variable {n n' n'' : Network} {i j : Nat} {ev : Event} {notes notes' : List Note} {name : String}
    {number : Nat}

/-! ## Executors and their work -/

/-- What a note says has happened in the step. -/
inductive Noted (n : Network) (i : Nat) : Event → Note → Prop where
  | handed (j : Nat) (name : String) (number : Nat) : Noted n i (.send i j) (.handed j name number)
  | done {name : String} {e : Executor.Event Command} {x : Processor} {t : Ticket Command}
      {o : Outcome} (hx : n.processors.get? name = some x)
      (hw : x.work Store.handler e = some (t, o)) :
      Noted n i (.node name e) (.done name t.number)

theorem noted_of_note? {note : Note} (h : n.note? i ev = some note) : n.Noted i ev note := by
  cases ev with
  | node name e =>
    obtain ⟨x, hx, h⟩ := Option.bind_eq_some_iff.1 h
    obtain ⟨⟨t, o⟩, hw, h⟩ := Option.bind_eq_some_iff.1 h
    cases h
    exact .done hx hw
  | send i' j =>
    simp only [note?] at h
    split at h
    · next hi =>
      subst hi
      obtain ⟨q, -, h⟩ := Option.bind_eq_some_iff.1 h
      obtain ⟨s, -, h⟩ := Option.bind_eq_some_iff.1 h
      split at h <;> cases h
      exact .handed ..
    · cases h
  | request plan => cases h
  | receive i' j => cases h
  | fail i' j report => cases h
  | cancel i' j => cases h

theorem note?_node {e : Executor.Event Command} {x : Processor}
    (hx : n.processors.get? name = some x) :
    n.note? i (.node name e) = (x.work Store.handler e).map fun w => .done name w.1.number := by
  simp only [note?, hx, Option.bind_eq_bind, Option.bind_some]
  cases x.work Store.handler e <;> rfl

theorem note?_send {q : Request} {s : Send} (hq : n.requests[i]? = some q)
    (hs : q.sends[j]? = some s) :
    n.note? i (.send i j) = match n.dispatch s.node s.command with
      | .ok (number, _) => some (.handed j s.node.name number)
      | .error _ => none := by
  simp only [note?, if_true, hq, hs, Option.bind_eq_bind, Option.bind_some]

/-- What happens at a node in a step: nothing, or a step of its executor; work that ends in
that is noted. -/
inductive Passes (n : Network) (i : Nat) (ev : Event) (name : String) (y : Processor) : Prop where
  | rests (hy : n.processors.get? name = some y)
      (hnote : ∀ number, n.note? i ev ≠ some (.done name number))
  | moves {x : Processor} {e : Executor.Event Command} (hx : n.processors.get? name = some x)
      (hy : x.step Store.handler e = some y)
      (hnote : ∀ number, n.note? i ev = some (.done name number) ↔
        ∃ t o, x.work Store.handler e = some (t, o) ∧ t.number = number)

theorem passes_of_node {name' : String} {e : Executor.Event Command}
    (h : n.step (.node name' e) = some n') {y : Processor} (hy : n'.processors.get? name = some y) :
    n.Passes i (.node name' e) name y := by
  obtain ⟨x, z, hx, hz, rfl⟩ := node_of_step h
  rw [get?_setProcessor] at hy
  have hnote := note?_node (i := i) (e := e) hx
  split at hy
  · next hname =>
    subst hname
    cases hy
    refine .moves hx hz fun number => ?_
    rw [hnote]
    constructor
    · intro heq
      obtain ⟨⟨t, o⟩, hw, hdone⟩ := Option.map_eq_some_iff.1 heq
      exact ⟨t, o, hw, (Note.done.inj hdone).2⟩
    · rintro ⟨t, o, hw, rfl⟩
      rw [hw]
      rfl
  · next hname =>
    refine .rests hy fun number heq => ?_
    cases noted_of_note? heq
    exact hname rfl

theorem passes_of_send {i' j : Nat} (h : n.step (.send i' j) = some n') {y : Processor}
    (hy : n'.processors.get? name = some y) : n.Passes i (.send i' j) name y := by
  have hnote : ∀ number, n.note? i (.send i' j) ≠ some (.done name number) :=
    fun number heq => nomatch noted_of_note? heq
  obtain ⟨q, s, -, -, hsend⟩ := sent_of_step h
  rcases hsend with ⟨o, q', -, -, rfl⟩ | ⟨x, c, sending, hx, -, -, -, rfl⟩
  · exact .rests hy hnote
  · change (n.setProcessor s.node.name (x.submit c)).processors.get? name = some y at hy
    rw [get?_setProcessor] at hy
    split at hy
    · next hname =>
      subst hname
      cases hy
      refine .moves (e := .submit c) hx rfl fun number => ⟨fun heq => absurd heq (hnote number), ?_⟩
      rintro ⟨t, o, hw, -⟩
      cases hw
    · exact .rests hy hnote

theorem passes_of_step (h : n.step ev = some n') {y : Processor}
    (hy : n'.processors.get? name = some y) : n.Passes i ev name y := by
  cases ev with
  | node name' e => exact passes_of_node h hy
  | send i' j => exact passes_of_send h hy
  | request plan =>
    cases h
    exact .rests hy nofun
  | receive i' j =>
    obtain ⟨q, s, number, x, reply, -, -, -, -, -, rfl⟩ := receive_of_step h
    exact .rests hy nofun
  | fail i' j report =>
    obtain ⟨q, s, e, left, -, -, -, -, rfl⟩ := fail_of_step h
    exact .rests hy nofun
  | cancel i' j =>
    obtain ⟨q, s, -, -, -, -, rfl⟩ := cancel_of_step h
    exact .rests hy nofun

theorem Executes.step (hn : n.Executes) (h : n.step ev = some n') : n'.Executes := by
  intro name y hy
  cases passes_of_step (i := 0) h hy with
  | rests hy => exact hn name y hy
  | moves hx hstep =>
    obtain ⟨workers, store, hreach⟩ := hn name _ hx
    exact ⟨workers, store, hreach.step hstep⟩

/-- Every node's executor has an execution, and what is noted as done is in its log. -/
def Logs (notes : List Note) (n : Network) : Prop :=
  ∀ name x, n.processors.get? name = some x →
    ∃ workers store log, Executor.Execution Store.handler workers store log x ∧
      ∀ number, .done name number ∈ notes → number ∈ log.map fun r => r.1.number

theorem Executes.logs (h : n.Executes) : n.Logs [] := by
  intro name x hx
  obtain ⟨workers, store, hreach⟩ := h name x hx
  obtain ⟨log, hlog⟩ := Executor.exists_execution hreach
  exact ⟨workers, store, log, hlog, fun _ => nofun⟩

theorem Logs.step (hn : n.Logs notes) (h : n.step ev = some n') :
    n'.Logs (notes ++ (n.note? i ev).toList) := by
  intro name y hy
  cases passes_of_step (i := i) h hy with
  | rests hy hnote =>
    obtain ⟨workers, store, log, hlog, hdone⟩ := hn name y hy
    refine ⟨workers, store, log, hlog, fun number hmem => ?_⟩
    rcases List.mem_append.1 hmem with hmem | hmem
    · exact hdone number hmem
    · exact absurd (Option.mem_toList.1 hmem) (hnote number)
  | moves hx hstep hnote =>
    obtain ⟨workers, store, log, hlog, hdone⟩ := hn name _ hx
    refine ⟨workers, store, _, hlog.step hstep, fun number hmem => ?_⟩
    rw [List.map_append, List.mem_append]
    rcases List.mem_append.1 hmem with hmem | hmem
    · exact .inl (hdone number hmem)
    · obtain ⟨t, o, hw, rfl⟩ := (hnote number).1 (Option.mem_toList.1 hmem)
      rw [hw]
      exact .inr (List.mem_singleton_self _)

/-- The work on a job ends only once. -/
theorem Logs.not_mem (hn : n.Logs notes) (h : n.step ev = some n')
    (hdone : n.note? i ev = some (.done name number)) : .done name number ∉ notes := by
  cases noted_of_note? hdone with
  | done hx hw =>
    obtain ⟨x', y, hx', hy, -⟩ := node_of_step h
    cases hx.symm.trans hx'
    obtain ⟨workers, store, log, hlog, hmem⟩ := hn name _ hx
    have hnodup := (hlog.step hy).invariant.recorded.log_nodup
    rw [hw, Option.toList_some, List.map_append, List.map_singleton, List.nodup_append] at hnodup
    intro hold
    exact hnodup.2.2 _ (hmem _ hold) _ (List.mem_singleton_self _) rfl

/-- Only work changes a store. -/
theorem done_of_store_ne (h : n.step ev = some n') (hne : n'.store? name ≠ n.store? name) :
    ∃ number, n.note? i ev = some (.done name number) := by
  cases hy : n'.processors.get? name with
  | none =>
    cases hx : n.processors.get? name with
    | none => exact absurd (by rw [store?, store?, hx, hy]) hne
    | some x =>
      obtain ⟨y, hy', -⟩ := get?_of_step h hx
      cases hy.symm.trans hy'
  | some y =>
    cases passes_of_step (i := i) h hy with
    | rests hx => exact absurd (by rw [store?, store?, hx, hy]) hne
    | @moves x e hx hstep hnote =>
      cases hw : x.work Store.handler e with
      | some w => exact ⟨_, (hnote _).2 ⟨w.1, w.2, hw, rfl⟩⟩
      | none =>
        have htransition := Executor.transition_of_step hstep
        rw [hw] at htransition
        have hstore := Executor.store_of_transition htransition
        exact absurd (by rw [store?, store?, hx, hy, Option.map_some, Option.map_some, hstore]) hne

end Network

end BucketCluster
