import BucketCluster.Network.Settle
import BucketCluster.Proofs.Coordination.Plans
import BucketCluster.Proofs.Coordination.Refinement
import BucketCluster.Proofs.Network.Sending

/-!
# A cluster answers like one store

In a session, commands come to a cluster one after the other, each to a coordinator
of its own choice and each when all earlier ones have been answered; between any two of
them the nodes and the links move on their own, in any order.  The nodes may be in one
process or talk over HTTP: then no connection fails, and no command is longer than a
server takes (`Network.Takes`).

`session_answers` compares this with a single store to which the same commands are
applied (`Store.applyAll`): the answers are the same, no command waits for an answer in
vain, and all moving in between comes to an end.  What carries the proof is that the
nodes, at rest, hold shards of the single store (`Represents`).
-/

namespace BucketCluster

/-! ## One store -/

/-- The cluster of the bucket has nodes. -/
def Ensemble.Serves (e : Ensemble) (b : String) : Prop :=
    ∃ self, (RoutingTable.ofEnsemble e self).members b ≠ []

/-- The command is a plain one on a bucket that is served, and nothing goes wrong with it
on the store. -/
structure Command.Suited (c : Command) (e : Ensemble) (ops : Operators) (s : Store) : Prop where
  served : ∃ b, c.operation.bucket? = some b ∧ e.Serves b
  plain : c.operation.Plain ops
  calm : c.Calm s

/-- Commands that are suited to the store, each to what the earlier ones have made of it. -/
def Store.Suits (s : Store) (e : Ensemble) (ops : Operators) : List Command → Prop
  | [] => True
  | c :: cs => c.Suited e ops s ∧ (s.apply c).2.Suits e ops cs

variable {e : Ensemble} {ops : Operators} {s whole : Store} {c : Command} {cs : List Command}
    {b : String}

theorem Store.suits_concat :
    s.Suits e ops (cs ++ [c]) ↔ s.Suits e ops cs ∧ c.Suited e ops (s.applyAll cs).2 := by
  induction cs generalizing s with
  | nil => exact ⟨fun h => ⟨trivial, h.1⟩, fun h => ⟨h.2, trivial⟩⟩
  | cons c' cs ih =>
    rw [List.cons_append]
    simp only [Suits, ih, and_assoc]
    rfl

/-- Every coordinator finds nodes for a bucket that is served. -/
theorem Ensemble.Serves.clusterNodes (h : e.Serves b) (self : Node) :
    ∃ ns, (RoutingTable.ofEnsemble e self).clusterNodes b = .ok ns := by
  obtain ⟨self', hmembers⟩ := h
  rw [(RoutingTable.sameNames_ofEnsemble e self' self).members] at hmembers
  unfold RoutingTable.members at hmembers
  cases hns : (RoutingTable.ofEnsemble e self).clusterNodes b with
  | ok ns => exact ⟨ns, rfl⟩
  | error err =>
    rw [hns] at hmembers
    exact absurd rfl hmembers

namespace Network

/-! ## Sessions -/

/-- All requests have answers. -/
def Answered (n : Network) : Prop := ∀ q ∈ n.requests, q.answer.isSome = true

/-- Every node of the ensemble runs, starts with an empty store and can be reached. -/
structure Healthy (e : Ensemble) (ops : Operators) (n : Network) : Prop where
  connected : n.Connected (e.members.map (·.name))
  started : ∀ name x, n.processors.get? name = some x →
    ∃ workers backups, x = .start workers (.empty ops backups)
  requests : n.requests = []

/-- The network after clients have had commands carried out, one after the other. -/
inductive Session (e : Ensemble) (ops : Operators) (n₀ : Network) :
    List Command → Network → Prop where
  | start : Session e ops n₀ [] n₀
  /-- The next command comes to the coordinator at the node `self`. -/
  | ask {cs : List Command} {n n' : Network} (h : Session e ops n₀ cs n) (ha : n.Answered)
      (self : Node) (c : Command)
      (hn' : n.step (.request ((⟨self, .ofEnsemble e self, ops⟩ : Router).plan c)) = some n') :
      Session e ops n₀ (cs ++ [c]) n'
  /-- The network moves on its own. -/
  | move {cs : List Command} {n n' : Network} {ev : Event} (h : Session e ops n₀ cs n)
      (hev : ev.isInternal = true) (hn' : n.step ev = some n') : Session e ops n₀ cs n'

/-- The nodes hold shards of the whole store, or are about to: the answers have been given, with
the exception of the last one, perhaps. -/
inductive Represents (e : Ensemble) (answers : List (Except ClusterError Answer)) (whole : Store)
    (n : Network) : Prop where
  | rest (stores : String → Store) (hshards : ∀ self, Shards (.ofEnsemble e self) stores whole)
      (hn : n.Rest (e.members.map (·.name)) stores answers)
  | carrying (stores : String → Store) (p : Plan) (a : Except ClusterError Answer)
      (before : List (Except ClusterError Answer)) (qs : List Request) (q : Request)
      (hanswers : answers = before ++ [a]) (hp : p.Faithful (e.members.map (·.name)) stores a)
      (hshards : ∀ self, Shards (.ofEnsemble e self) (p.after stores) whole)
      (hn : Carrying (e.members.map (·.name)) stores p a before qs q n)

variable {n n' n₀ : Network} {answers : List (Except ClusterError Answer)} {ev : Event}

/-! ## Starts and runs -/

/-- The network after the given steps, if all of them can be taken. -/
def after (n : Network) : List Event → Option Network
  | [] => some n
  | ev :: evs => n.step ev >>= fun m => m.after evs

theorem Session.run (h : Session e ops n₀ cs n) {evs : List Event}
    (hevs : evs.all Event.isInternal = true) (hn' : n.after evs = some n') :
    Session e ops n₀ cs n' := by
  induction evs generalizing n with
  | nil => cases hn'; exact h
  | cons ev evs ih =>
    rw [List.all_cons, Bool.and_eq_true] at hevs
    obtain ⟨m, hm, hn'⟩ := Option.bind_eq_some_iff.1 hn'
    exact ih (h.move hevs.1 hm) hevs.2 hn'

theorem foldl_withNode (x : Processor) (names : List String) (n : Network) :
    (∀ name, ((names.foldl (fun n name => n.withNode name x) n).processors.get? name =
      if name ∈ names then some x else n.processors.get? name)) ∧
    (∀ name, ((names.foldl (fun n name => n.withNode name x) n).attached.get? name =
      if name ∈ names then some .loopback else n.attached.get? name)) ∧
    (names.foldl (fun n name => n.withNode name x) n).scripts = n.scripts ∧
    (names.foldl (fun n name => n.withNode name x) n).requests = n.requests := by
  induction names generalizing n with
  | nil => simp
  | cons name' names ih =>
    obtain ⟨h1, h2, h3, h4⟩ := ih (n.withNode name' x)
    rw [List.foldl_cons]
    refine ⟨?_, ?_, h3, h4⟩
    · intro name
      rw [h1, withNode]
      by_cases hn : name = name'
      · subst hn
        simp
      · rw [SortedMap.get?_insert_of_ne _ _ hn]
        simp [hn]
    · intro name
      rw [h2, withNode]
      by_cases hn : name = name'
      · subst hn
        simp
      · rw [SortedMap.get?_insert_of_ne _ _ hn]
        simp [hn]

/-- A new network for an ensemble is healthy. -/
theorem healthy_ofEnsemble (e : Ensemble) (ops : Operators) (name : String) (workers : Nat)
    (backups : BackupDirectory) :
    Healthy e ops (.ofEnsemble e name (.start workers (.empty ops backups))) := by
  obtain ⟨h1, h2, h3, h4⟩ := foldl_withNode (.start workers (.empty ops backups))
    (name :: e.members.map (·.name)) empty
  refine ⟨⟨fun name' hn => ⟨_, (h1 name').trans (if_pos (List.mem_cons_of_mem _ hn))⟩, ?_, ?_⟩, ?_,
    h4⟩
  · intro name' hn
    exact ⟨.loopback, (h2 name').trans (if_pos (List.mem_cons_of_mem _ hn))⟩
  · intro name' _
    rw [ofEnsemble, h3]
    rfl
  · intro name' x hx
    rw [ofEnsemble, h1] at hx
    split at hx
    · exact ⟨workers, backups, (Option.some.inj hx).symm⟩
    · cases hx

/-- It does not matter which link leads to a node. -/
theorem Healthy.attach (h : Healthy e ops n) (name : String) (link : Link) :
    Healthy e ops (n.attach name link) := by
  refine ⟨⟨h.connected.known, fun name' hn => ?_, h.connected.unscripted⟩, h.started, h.requests⟩
  rw [Network.attach, SortedMap.get?_insert]
  split
  · exact ⟨link, rfl⟩
  · exact h.connected.attached name' hn

/-! ## Steps of a session -/

theorem Healthy.represents (h : Healthy e ops n) (backups : BackupDirectory) :
    n.Represents e [] (.empty ops backups) := by
  let kept (name : String) : BackupDirectory :=
    ((n.processors.get? name).map (·.store.backups)).getD backups
  refine .rest (fun name => .empty ops (kept name)) (fun self => Shards.empty _ ops kept backups)
    ⟨h.connected, ?_, ?_⟩
  · intro name x hx
    obtain ⟨workers, own, rfl⟩ := h.started name x hx
    have hkept : kept name = own := by
      simp only [kept, hx]
      rfl
    rw [hkept]
    exact Executor.quiet_start workers _
  · refine ⟨by rw [h.requests]; rfl, ?_⟩
    intro q hq
    rw [h.requests] at hq
    cases hq

theorem Represents.move (h : n.Represents e answers whole) (hev : ev.isInternal = true)
    (hn' : n.step ev = some n') :
    n'.Represents e answers whole ∧ n'.remaining < n.remaining := by
  cases h with
  | rest stores hshards hn =>
    obtain ⟨hrest, hlt⟩ := rest_step hn' hev hn
    exact ⟨.rest stores hshards hrest, hlt⟩
  | carrying stores p a before qs q hanswers hp hshards hn =>
    obtain ⟨q', hcarrying, hlt⟩ := carrying_step hp hn' hev hn
    exact ⟨.carrying stores p a before qs q' hanswers hp hshards hcarrying, hlt⟩

/-- Once all requests are answered, the nodes hold shards of the whole. -/
theorem Represents.rest_of_answered (h : n.Represents e answers whole) (ha : n.Answered) :
    ∃ stores, (∀ self, Shards (.ofEnsemble e self) stores whole) ∧
      n.Rest (e.members.map (·.name)) stores answers := by
  cases h with
  | rest stores hshards hn => exact ⟨stores, hshards, hn⟩
  | carrying stores p a before qs q hanswers hp hshards hn =>
    have hq : q ∈ n.requests := by
      rw [hn.requests]
      exact List.mem_append_right _ (List.mem_singleton_self q)
    rw [hanswers]
    exact ⟨p.after stores, hshards, hn.rest hp (ha q hq)⟩

/-- The next command finds the operator missing that the whole finds missing, or a plan that
refines it. -/
theorem Represents.ask (h : n.Represents e answers whole) (hops : whole.operators = ops)
    (ha : n.Answered) (self : Node) (hc : c.Suited e ops whole)
    (ht : n.Takes (e.members.map (·.name)) c)
    (hn' : n.step (.request ((⟨self, .ofEnsemble e self, ops⟩ : Router).plan c)) = some n') :
    n'.Represents e (answers ++ [(whole.apply c).1.mapError .ofStore]) (whole.apply c).2 := by
  obtain ⟨stores, hshards, hrest⟩ := h.rest_of_answered ha
  obtain ⟨b, hb, hserves⟩ := hc.served
  obtain ⟨ns, hns⟩ := hserves.clusterNodes self
  have hready : Router.Ready ⟨self, .ofEnsemble e self, ops⟩ (e.members.map (·.name)) stores
      whole b ns :=
    ⟨hshards self, hops, RoutingTable.distinct_ofEnsemble e self, hns⟩
  rcases Router.plan_refines hready hb hc.plain hc.calm with ⟨err, hplan, happly⟩
    | ⟨p, hplan, hp, hafter⟩
  · rw [hplan] at hn'
    rw [happly]
    exact .rest stores hshards (hrest.ask_error hn')
  · rw [hplan] at hn'
    have hsends : ∀ send ∈ p.sends, n.Takes (e.members.map (·.name)) send.2 :=
      fun send hs => ht.of_le (Router.suits_of_plan hplan send hs).2
    exact .carrying stores p _ answers _ _ rfl hp
      (fun self' => hafter.of_sameNames (RoutingTable.sameNames_ofEnsemble e self self'))
      (hrest.ask hp hsends hn')

/-- Requests that are done have answers. -/
theorem Done.isSome {qs : List Request} (h : Done qs answers) {q : Request} (hq : q ∈ qs) :
    q.answer.isSome = true := by
  have hmem := List.mem_map_of_mem (f := fun q : Request => q.answer) hq
  rw [h.answers] at hmem
  obtain ⟨a, -, ha⟩ := List.mem_map.1 hmem
  rw [← ha]
  rfl

theorem Represents.progress (h : n.Represents e answers whole) :
    n.Answered ∨ ∃ ev : Event, ev.isInternal = true ∧ (n.step ev).isSome = true := by
  cases h with
  | rest stores hshards hn => exact .inl fun q hq => hn.done.isSome hq
  | carrying stores p a before qs q hanswers hp hshards hn =>
    cases hq : q.answer with
    | none => exact .inr (hn.progress hp hq)
    | some given =>
      refine .inl ?_
      intro q' hq'
      rw [hn.requests] at hq'
      rcases List.mem_append.1 hq' with hq' | hq'
      · exact hn.done.isSome hq'
      · rw [List.mem_singleton.1 hq', hq]
        rfl

/-- What has been answered has the answer of the whole. -/
theorem Represents.answer?_eq (h : n.Represents e answers whole) {i : Nat}
    {a : Except ClusterError Answer} (ha : n.answer? i = some a) : answers[i]? = some a := by
  obtain ⟨r, hr, hra⟩ := Option.bind_eq_some_iff.1 ha
  cases h with
  | rest stores hshards hn =>
    have hget := congrArg (·[i]?) hn.done.answers
    simp only [List.getElem?_map, hr, Option.map_some, hra] at hget
    obtain ⟨a', ha', heq⟩ := Option.map_eq_some_iff.1 hget.symm
    rw [ha', Option.some.inj heq]
  | carrying stores p a' before qs q hanswers hp hshards hn =>
    have hlen : qs.length = before.length := by
      simpa using congrArg List.length hn.done.answers
    rw [hn.requests] at hr
    rw [hanswers]
    rcases getElem?_concat_or hr with hr | ⟨rfl, rfl⟩
    · have hget := congrArg (·[i]?) hn.done.answers
      simp only [List.getElem?_map, hr, Option.map_some, hra] at hget
      obtain ⟨a'', ha'', heq⟩ := Option.map_eq_some_iff.1 hget.symm
      rw [List.getElem?_append_left (List.getElem?_eq_some_iff.1 ha'').1, ha'', Option.some.inj heq]
    · have hanswer := hn.follows.answer
      rw [hra] at hanswer
      split at hanswer
      · rw [hlen, List.getElem?_concat_length, Option.some.inj hanswer]
      · cases hanswer

/-- Links stay as they are. -/
theorem Session.attached (h : Session e ops n₀ cs n) : n.attached = n₀.attached := by
  induction h with
  | start => rfl
  | ask h ha self c hn' ih => exact (links_of_step hn').1.trans ih
  | move h hev hn' ih => exact (links_of_step hn').1.trans ih

theorem Session.represents {backups : BackupDirectory} (hn₀ : Healthy e ops n₀)
    (h : Session e ops n₀ cs n) (hcs : (Store.empty ops backups).Suits e ops cs)
    (ht : ∀ c ∈ cs, n₀.Takes (e.members.map (·.name)) c) :
    n.Represents e (((Store.empty ops backups).applyAll cs).1.map (·.mapError .ofStore))
      ((Store.empty ops backups).applyAll cs).2 := by
  induction h with
  | start => exact hn₀.represents backups
  | ask h ha self c hn' ih =>
    obtain ⟨hcs, hc⟩ := Store.suits_concat.1 hcs
    rw [List.forall_mem_append, List.forall_mem_singleton] at ht
    rw [Store.applyAll_concat, List.map_append]
    exact (ih hcs ht.1).ask (Store.operators_applyAll _ _) ha self hc (ht.2.of_attached h.attached)
      hn'
  | move h hev hn' ih => exact ((ih hcs ht).move hev hn').1

/-- **A healthy cluster is one store.** In a session, whoever the coordinators are and in
whatever order the nodes and the links move: an answer that has been given is the one that a
single store gives; as long as one is missing, the cluster can move on its own; and every
such move leaves less to do. -/
theorem session_answers (backups : BackupDirectory) (hn₀ : Healthy e ops n₀)
    (hcs : (Store.empty ops backups).Suits e ops cs)
    (ht : ∀ c ∈ cs, n₀.Takes (e.members.map (·.name)) c) (h : Session e ops n₀ cs n) :
    (∀ i a, n.answer? i = some a →
      (((Store.empty ops backups).applyAll cs).1.map (·.mapError .ofStore))[i]? = some a) ∧
    (n.Answered → n.requests.map (·.answer) =
      ((Store.empty ops backups).applyAll cs).1.map fun a => some (a.mapError .ofStore)) ∧
    (n.Answered ∨ ∃ ev : Event, ev.isInternal = true ∧ (n.step ev).isSome = true) ∧
    ∀ ev n', ev.isInternal = true → n.step ev = some n' → n'.remaining < n.remaining := by
  have hrep := h.represents hn₀ hcs ht
  refine ⟨fun i a => hrep.answer?_eq, fun ha => ?_, hrep.progress,
    fun ev n' hev hn' => (hrep.move hev hn').2⟩
  obtain ⟨stores, -, hrest⟩ := hrep.rest_of_answered ha
  rw [hrest.done.answers, List.map_map]
  rfl

/-! ## Two nodes -/

def pair : Ensemble :=
  ⟨16, [⟨"c", [⟨"left", .v4 [127, 0, 0, 1] 1⟩, ⟨"right", .v4 [127, 0, 0, 1] 2⟩]⟩],
    .ofList [("b", "c")]⟩

def left (inProcess : Bool) : Node := ⟨"left", .v4 [127, 0, 0, 1] 1, ⟨"c", true⟩, inProcess⟩

def right (inProcess : Bool) : Node := ⟨"right", .v4 [127, 0, 0, 1] 2, ⟨"c", true⟩, inProcess⟩

/-- The table of a node that sees the two like this. -/
theorem table_of_seen {self l r : Node} (hl : l.name = "left") (hr : r.name = "right")
    (hseen : (pair.clusters.map fun c =>
        (RoutingTable.seenCluster self c, c.members.map (RoutingTable.seenMember self c))) =
      [(⟨"c", true⟩, [l, r])]) :
    RoutingTable.ofEnsemble pair self =
      ⟨.ofCount 16, [⟨"c", true⟩], .ofList [("c", [l, r])], .ofList [("b", "c")]⟩ := by
  have hsort : Node.dedup (Node.sort [l, r]) = [l, r] := by
    have hle : [l, r].Pairwise fun a b => (a.order b).isLE = true := by
      simp only [List.pairwise_pair, Node.order, hl, hr]
      decide
    rw [Node.sort, List.mergeSort_of_pairwise hle]
    simp [Node.dedup, Node.dedupAux, Node.same, hl, hr]
  have hcluster : (RoutingTable.empty 16).withCluster ⟨"c", true⟩ [l, r] =
      ⟨.ofCount 16, [⟨"c", true⟩], .ofList [("c", [l, r])], ∅⟩ := by
    unfold RoutingTable.withCluster
    rw [hsort, List.mergeSort_of_pairwise (by decide)]
    rfl
  have hfold :=
    congrArg (List.foldl (fun t c => t.withCluster c.1 c.2) (RoutingTable.empty 16)) hseen
  rw [List.foldl_map] at hfold
  unfold RoutingTable.ofEnsemble
  exact congrArg (fun t => t.withPin "b" "c") (hfold.trans hcluster)

theorem table_left : RoutingTable.ofEnsemble pair (left true) =
    ⟨.ofCount 16, [⟨"c", true⟩], .ofList [("c", [left true, right false])], .ofList [("b", "c")]⟩ :=
  table_of_seen rfl rfl (by decide)

theorem table_right : RoutingTable.ofEnsemble pair (right true) =
    ⟨.ofCount 16, [⟨"c", true⟩], .ofList [("c", [left false, right true])], .ofList [("b", "c")]⟩ :=
  table_of_seen rfl rfl (by decide)

def put : Command := ⟨"1", .putValue "b" ⟨[107]⟩ ⟨[1]⟩ none⟩

def listing : Command := ⟨"2", .getKeys "b"⟩

theorem plan_put : (⟨left true, .ofEnsemble pair (left true), .empty⟩ : Router).plan put =
    .ok (.direct (right false) put) := by
  rw [table_left]
  rfl

theorem plan_listing : (⟨right true, .ofEnsemble pair (right true), .empty⟩ : Router).plan listing =
    .ok ⟨[(left false, listing), (right true, listing)], .keys⟩ := by
  rw [table_right]
  rfl

/-- The node gets the job of the given number and takes the steps that it asks for. -/
def work (name : String) (number steps : Nat) : List Event :=
  .node name (.push number) :: List.replicate steps (.node name (.worker 0))

def pairNetwork : Network := .ofEnsemble pair "left" (.start 1 (.empty .empty (.absent "")))

/-- The two nodes are in two processes. -/
def remotePair : Network :=
  (pairNetwork.attach "left" (.http "connection refused")).attach "right"
    (.http "connection refused")

theorem healthy_pair : Healthy pair .empty pairNetwork :=
  healthy_ofEnsemble pair .empty "left" 1 (.absent "")

theorem healthy_remotePair : Healthy pair .empty remotePair :=
  (healthy_pair.attach "left" _).attach "right" _

theorem runs_pair :
    ((remotePair.step (.request (.ok (.direct (right false) put)))).any fun n₁ =>
      (n₁.after (.send 0 0 :: work "right" 0 6 ++ [.receive 0 0])).any fun n₂ =>
        n₂.requests.all (·.answer.isSome) && (n₂.step (.request
            (.ok ⟨[(left false, listing), (right true, listing)], .keys⟩))).any fun n₃ =>
          (n₃.after ([.send 1 1, .send 1 0] ++ work "left" 0 6 ++ work "right" 1 7 ++
            [.receive 1 1, .receive 1 0])).any fun n₄ =>
              n₄.requests.all (·.answer.isSome)) = true := by
  decide +kernel

/-- A document is stored at one coordinator and listed at the other, over HTTP. -/
theorem session_answers_pair : ∃ n, Session pair .empty remotePair [put, listing] n ∧
    n.requests.map (·.answer) = [some (.ok .done), some (.ok (.keys (.ofElements [⟨[107]⟩])))] := by
  obtain ⟨n₁, h₁, hrun⟩ := Option.any_eq_true .. |>.1 runs_pair
  obtain ⟨n₂, h₂, hrun⟩ := Option.any_eq_true .. |>.1 hrun
  rw [Bool.and_eq_true] at hrun
  obtain ⟨n₃, h₃, hrun'⟩ := Option.any_eq_true .. |>.1 hrun.2
  obtain ⟨n₄, h₄, hrun'⟩ := Option.any_eq_true .. |>.1 hrun'
  have hs₁ : Session pair .empty remotePair [put] n₁ :=
    Session.start.ask (fun _ hq => by cases hq) (left true) put (by rw [plan_put]; exact h₁)
  have hs₂ := hs₁.run (by decide) h₂
  have hs₃ : Session pair .empty remotePair [put, listing] n₃ :=
    hs₂.ask (List.all_eq_true.1 hrun.1) (right true) listing (by rw [plan_listing]; exact h₃)
  have hs₄ := hs₃.run (by decide) h₄
  have hserves : pair.Serves "b" := ⟨left true, by rw [table_left]; decide +kernel⟩
  have hcs : (Store.empty .empty (.absent "")).Suits pair .empty [put, listing] := by
    refine ⟨⟨⟨"b", rfl, hserves⟩, trivial, rfl, by decide +kernel, by decide +kernel, ?_⟩,
      ⟨⟨"b", rfl, hserves⟩, trivial, rfl, by decide +kernel, by decide +kernel, ?_⟩, trivial⟩
    · intro b hb
      cases hb
      decide +kernel
    · intro b hb
      cases hb
      decide +kernel
  have hlengths : ∀ c ∈ [put, listing],
      (Command.schema.encode c).length ≤ Service.bodyLimit := by
    decide +kernel
  have ht : ∀ c ∈ [put, listing], remotePair.Takes (pair.members.map (·.name)) c :=
    fun c hc _ _ _ _ => hlengths c hc
  refine ⟨n₄, hs₄, ?_⟩
  rw [(session_answers (.absent "") healthy_remotePair hcs ht hs₄).2.1 (List.all_eq_true.1 hrun')]
  decide +kernel

end Network

end BucketCluster
