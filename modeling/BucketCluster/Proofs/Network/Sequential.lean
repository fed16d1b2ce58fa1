import BucketCluster.Network.Basic
import BucketCluster.Proofs.Coordination.Session
import BucketCluster.Proofs.Executor.OneWorker

/-!
# A node with one worker

A node whose executor has one worker serves its commands as a store would that gets them
one after the other (`Store.serveAll`), in the order in which they got into the queue and up
to some point; what comes after this point does nothing to the store, and is turned away
once the node is shut down (`serial_of_reachable`).

Where no operator crashes, serving a command is applying it (`Store.serveAll_of_calm`).
-/

namespace BucketCluster

/-! ## One store -/

/-- The replies of a store to commands that come one after the other, and the store after them. -/
def Store.serveAll (s : Store) : List Command → List Reply × Store
  | [] => ([], s)
  | c :: cs =>
    let (r, s) := s.handle c
    let (rs, s) := s.serveAll cs
    (r :: rs, s)

theorem Store.serveAll_concat (s : Store) (cs : List Command) (c : Command) :
    s.serveAll (cs ++ [c]) =
      ((s.serveAll cs).1 ++ [((s.serveAll cs).2.handle c).1], ((s.serveAll cs).2.handle c).2) := by
  induction cs generalizing s with
  | nil => rfl
  | cons c' cs ih =>
    rw [List.cons_append]
    simp only [serveAll, ih]
    rfl

/-- No operator crashes when the commands are applied one after the other. -/
def Store.CalmThrough (s : Store) (cs : List Command) : Prop :=
  ∀ cs' c, cs' ++ [c] <+: cs → (s.applyAll cs').2.crashes c.operation = false

/-- If no operator crashes on the way, all commands are applied. -/
theorem Store.serveAll_of_calm {s : Store} {cs : List Command} (h : s.CalmThrough cs) :
    s.serveAll cs = ((s.applyAll cs).1.map (·.mapError .store), (s.applyAll cs).2) := by
  induction cs generalizing s with
  | nil => rfl
  | cons c cs ih =>
    have hcalm : s.crashes c.operation = false := h [] c (List.prefix_append [c] cs)
    have hrest := ih (s := (s.apply c).2) fun cs' c' hprefix =>
      h (c :: cs') c' ((List.prefix_cons_inj c).2 hprefix)
    simp only [serveAll, applyAll, handle_of_calm hcalm, hrest]
    rfl

/-- What the work in a log makes of a store is what serving its commands makes of it. -/
theorem serveAll_of_replays {store s : Store} {log : List (Ticket Command × Outcome)}
    (h : Executor.Replays Store.handler store log s) :
    store.serveAll (log.map (·.1.job)) = (log.map (·.2.reply), s) := by
  induction h with
  | nil => rfl
  | snoc _ hrun ih =>
    rw [List.map_append, List.map_append, List.map_singleton, List.map_singleton,
      Store.serveAll_concat, ih]
    cases hrun
    rfl

/-! ## One worker -/

namespace Executor

/-- The first commands that have got into the queue. -/
def firstCommands (x : Processor) (n : Nat) : List Command := (x.tickets.take n).map (·.job)

/-- The replies if the first commands are served and all others turned away. -/
def answers (store : Store) (x : Processor) (served : Nat) : List (Nat × Reply) :=
  (x.pushed.take served).zip (store.serveAll (firstCommands x served)).1 ++
    turnedAway (x.pushed.drop served)

/-- The commands of the node are served one after the other, and the work on the first
`served` has ended. -/
structure Serial (store : Store) (x : Processor) (served : Nat) : Prop where
  /-- The accepted commands are in line, each of them once. -/
  accepted : ∀ t, t ∈ x.tickets ↔ x.Accepted t
  pushed : x.tickets.map (·.number) = x.pushed
  pushed_nodup : x.pushed.Nodup
  started : x.started <+: x.pushed
  /-- No command is started before all that were started earlier are answered. -/
  alone : ∀ n ∈ x.started.dropLast, ∃ r, x.reply? n = some r
  length_started : served ≤ x.started.length ∧ x.started.length ≤ served + 1
  store_eq : x.store = (store.serveAll (firstCommands x served)).2
  replies : x.replies <+: answers store x served
  heard : ∀ n ∈ x.pushed, ∀ r, x.reply? n = some r ↔ (n, r) ∈ x.replies
  /-- To serve is to apply, unless an operator crashes. -/
  applied : store.CalmThrough (firstCommands x served) → store.serveAll (firstCommands x served) =
    ((store.applyAll (firstCommands x served)).1.map (·.mapError .store),
      (store.applyAll (firstCommands x served)).2)

variable {x : Processor} {workers : Nat} {store : Store} {log : List (Ticket Command × Outcome)}
  {a : Worker Command} {gone : List Nat}

/-- The commands that have been worked on are served to the store. -/
theorem InLine.serveAll_eq (hx : InLine log x a gone)
    (h : Execution Store.handler workers store log x) :
    store.serveAll (firstCommands x log.length) = (log.map (·.2.reply), x.store) := by
  rw [firstCommands, hx.take_tickets h.invariant.recorded, List.map_map]
  exact serveAll_of_replays h.replays

theorem InLine.answers_eq (hx : InLine log x a gone)
    (h : Execution Store.handler workers store log x) :
    answers store x log.length = workReplies log ++ turnedAway (x.pushed.drop log.length) := by
  have hnumbers : x.pushed.take log.length = log.map (·.1.number) := by
    rw [← h.pushedOnce.tickets_number, ← List.map_take, hx.take_tickets h.invariant.recorded,
      List.map_map]
    rfl
  rw [answers, hnumbers, hx.serveAll_eq h, List.zip_map', workReplies]

theorem serial_of_inLine (h : Execution Store.handler workers store log x)
    (hx : InLine log x a gone) : Serial store x log.length := by
  have hpushed := h.pushedOnce
  have hheard : ∀ n ∈ x.pushed, ∀ r, x.reply? n = some r ↔ (n, r) ∈ x.replies := fun n hn =>
    reply?_eq_some_iff h.invariant.staged (hpushed.mem_pushed.1 hn)
  refine ⟨fun t => hpushed.mem_tickets, hpushed.tickets_number, hpushed.nodup,
    hx.started_prefix, ?_, hx.length_started, ?_, ?_, hheard, Store.serveAll_of_calm⟩
  · intro n hn
    obtain ⟨⟨m, r⟩, hr, rfl⟩ := List.mem_map.1 (hx.answered_before hn)
    exact ⟨r, (hheard m (hx.started_prefix.subset (List.dropLast_subset _ hn)) r).2 hr⟩
  · rw [hx.serveAll_eq h]
  · rw [hx.answers_eq h]
    exact hx.replies_prefix

/-- **A node with one worker is sequential.**  Whatever has been submitted to it and however
it has been paused, resumed and shut down in between: its commands are served one after the
other in the order in which they got into the queue, up to some point, and the store and the
replies are those of a store that serves so many of them.  Once it has been shut down, all
that have been started are served, and all others have been turned away. -/
theorem serial_of_reachable (hone : workers ≤ 1) (hx : Reachable Store.handler workers store x) :
    ∃ served, Serial store x served ∧
      (ShutDown Store.handler x → served = x.started.length ∧ x.replies = answers store x served ∧
        ∀ n ∈ x.pushed.drop served, x.reply? n = some (.error .shutdown)) := by
  obtain ⟨log, hlog⟩ := exists_execution hx
  obtain ⟨a, gone, hline⟩ := hlog.inLine hone
  have hserial := serial_of_inLine hlog hline
  refine ⟨log.length, hserial, fun hdown => ?_⟩
  have hstopped : a = .stopped := by
    have hall := hdown.stopped
    rw [hline.workers, List.all_cons, Bool.and_eq_true] at hall
    cases a with
    | stopped => rfl
    | _ => cases hall.1
  subst hstopped
  obtain ⟨hlength, hreplies⟩ := hline.left hlog.invariant.closing
  refine ⟨hlength, ?_, fun n hn => ?_⟩
  · rw [hline.answers_eq hlog]
    exact hreplies
  · rw [hserial.heard n (List.mem_of_mem_drop hn), hreplies]
    exact List.mem_append_right _ (List.mem_map.2 ⟨n, hn, rfl⟩)

/-- Three commands come in one order and get into the queue in another; a pause catches the
first of them at the gate, and a shutdown comes when the second one has passed it. -/
def untilShutdown : List (Event Command) :=
  [.submit ⟨"0", .getKeys "b"⟩, .submit ⟨"1", .putValue "b" ⟨[107]⟩ ⟨[1]⟩ none⟩,
    .submit ⟨"2", .removeBucket "b"⟩, .push 1, .push 0, .push 2, .worker 0, .worker 0, .pause,
      .worker 0, .resume,
    .call 1, .worker 0, .worker 0, .worker 0, .worker 0, .worker 0, .worker 0, .worker 0, .worker 0,
      .worker 0,
    .worker 0, .shutdown]

/-- The second command is served, and the third one turned away. -/
def untilJoined : List (Event Command) :=
  [.worker 0, .worker 0, .worker 0, .worker 0, .worker 0, .call 2, .worker 0, .call 2, .worker 0,
    .worker 0, .worker 0, .call 2]

def plainStore : Store := .empty .empty (.absent "/backups")

def shutDownNode : Processor := ((start 0 plainStore).after Store.handler untilShutdown).get rfl

def joinedNode : Processor := (shutDownNode.after Store.handler untilJoined).get rfl

theorem serial_joined : Reachable Store.handler 0 plainStore joinedNode ∧
    ShutDown Store.handler joinedNode ∧
    joinedNode.pushed = [1, 0, 2] ∧ joinedNode.started = [1, 0] ∧
    joinedNode.reply? 0 = some (.ok (.keys (.ofElements [⟨[107]⟩]))) ∧
    ∃ served, Serial plainStore joinedNode served ∧ served = joinedNode.started.length ∧
      ∀ n ∈ joinedNode.pushed.drop served, joinedNode.reply? n = some (.error .shutdown) := by
  have hu : Reachable Store.handler 0 plainStore shutDownNode :=
    Reachable.start.after untilShutdown rfl
  have hx : Reachable Store.handler 0 plainStore joinedNode := hu.after untilJoined rfl
  have hdown : ShutDown Store.handler joinedNode :=
    ⟨shutDownNode, 2, rfl, path_after untilJoined rfl, rfl⟩
  obtain ⟨served, hserial, hshut⟩ := serial_of_reachable (by decide) hx
  obtain ⟨hlength, -, hrest⟩ := hshut hdown
  exact ⟨hx, hdown, rfl, rfl, rfl, served, hserial, hlength, hrest⟩

end Executor

end BucketCluster
