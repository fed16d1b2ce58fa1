import BucketCluster.Proofs.Coordination.Plans
import BucketCluster.Proofs.Coordination.Session
import BucketCluster.Proofs.Network.Sending

/-!
# Where keys are stored

Plans send a document to the holder of its key, and to no other node.  So in whatever
order a healthy cluster works, and however many requests are under way at a time, a node
has a key because the key is its own, or because it has read it from a backup
(`Run.placed`): a coordinator has backups read at its own node, whoever holds the keys.

`listing_agrees` draws the conclusion for those who ask: listing a bucket gives all keys
that can be read from it, and no others as long as every backup has been read where its
keys belong.  Without that, a key can be listed that cannot be read
(`listed_unreadable`).
-/

namespace BucketCluster

namespace Network

/-! ## Runs -/

/-- The backup has only keys that belong to the node which has read it, if that node is one
of the bucket's. -/
def Import.AtHome (m : Import) (e : Ensemble) : Prop :=
  ∀ self, m.node ∈ (RoutingTable.ofEnsemble e self).members m.bucket →
    ∀ k ∈ m.keys, (RoutingTable.ofEnsemble e self).holder m.bucket k = some m.node

/-- The network after any requests to any coordinators, none of which has to wait for the
others, with the backups that have been read on the way. -/
inductive Run (e : Ensemble) (n₀ : Network) : List Import → Network → Prop where
  | start : Run e n₀ [] n₀
  | ask {imports : List Import} {n n' : Network} (h : Run e n₀ imports n) (r : Router)
      (hr : r.table = .ofEnsemble e r.self) (c : Command) (hc : Command.schema.Fits c)
      (hn' : n.step (.request (r.plan c)) = some n') : Run e n₀ imports n'
  | move {imports : List Import} {n n' : Network} {ev : Event} (h : Run e n₀ imports n)
      (hev : ev.isInternal = true) (hn' : n.step ev = some n') :
      Run e n₀ (imports ++ (n.import? ev).toList) n'

/-! ## Where keys are -/

/-- Every key that a node has is its own, or has come to it in a backup. -/
structure Placed (t : RoutingTable) (imports : List Import) (n : Network) : Prop where
  carries : n.Carries t.Suits
  home : ∀ name x b k, n.processors.get? name = some x → (x.store.contents b).contains k = true →
    t.holder b k = some name ∨ ∃ m ∈ imports, m.node = name ∧ m.bucket = b ∧ k ∈ m.keys

variable {e : Ensemble} {ops : Operators} {n₀ n n' : Network} {imports : List Import}
  {t u : RoutingTable} {ev : Event}

theorem suits_of_sameNames (h : t.SameNames u) {name : String} {c : Command} (hc : t.Suits name c) :
    u.Suits name c := by
  intro b k d p hput
  rw [← h.holder]
  exact hc b k d p hput

theorem Healthy.placed (h : Healthy e ops n) (t : RoutingTable) : n.Placed t [] := by
  refine ⟨⟨?_, ?_, ?_⟩, ?_⟩
  · intro name x hx
    obtain ⟨workers, backups, rfl⟩ := h.started name x hx
    exact ⟨workers, _, [], .start⟩
  · intro name x hx c hc
    obtain ⟨workers, backups, rfl⟩ := h.started name x hx
    cases hc
  · intro q hq
    rw [h.requests] at hq
    cases hq
  · intro name x b k hx hk
    obtain ⟨workers, backups, rfl⟩ := h.started name x hx
    cases hk

/-- What the network does on its own leaves every key in its place, backups excepted. -/
theorem Placed.move (h : n.Placed t imports) (hev : ev.isInternal = true)
    (hn' : n.step ev = some n') : n'.Placed t (imports ++ (n.import? ev).toList) := by
  have hm := h.carries.move_of_step hn' hev
  refine ⟨h.carries.move hm, ?_⟩
  intro name y b k hy hk
  obtain ⟨x, hx, hstore⟩ := h.carries.store_of_move hm hy
  have hbefore (hold : (x.store.contents b).contains k = true) : t.holder b k = some name ∨
      ∃ m ∈ imports ++ (n.import? ev).toList, m.node = name ∧ m.bucket = b ∧ k ∈ m.keys := by
    rcases h.home name x b k hx hold with hholder | ⟨m, hmem, hkeys⟩
    · exact .inl hholder
    · exact .inr ⟨m, List.mem_append_left _ hmem, hkeys⟩
  rcases hstore with hstore | ⟨c, hsuits, hstore, himport⟩
  · rw [hstore] at hk
    exact hbefore hk
  · rw [hstore] at hk
    rcases Store.contains_handle hk with hold | ⟨d, p, hput⟩ | ⟨ks, hks, hmem⟩
    · exact hbefore hold
    · exact .inl (hsuits b k d p hput)
    · refine .inr ⟨⟨name, b, ks⟩, List.mem_append_right _ ?_, rfl, rfl, hmem⟩
      rw [himport b ks hks]
      exact List.mem_singleton_self _

/-- **Every key is in its place.**  Whatever the requests and however they overlap. -/
theorem Run.placed (hn₀ : Healthy e ops n₀) (h : Run e n₀ imports n) (self : Node) :
    n.Connected (e.members.map (·.name)) ∧ n.Placed (.ofEnsemble e self) imports := by
  induction h with
  | start => exact ⟨hn₀.connected, hn₀.placed _⟩
  | ask h r hr c hc hn' ih =>
    refine ⟨ih.1.step hn', ih.2.carries.ask ?_ hn', ?_⟩
    · intro p hp send hs
      obtain ⟨hsuits, hle⟩ := Router.suits_of_plan hp send hs
      rw [hr] at hsuits
      exact ⟨suits_of_sameNames (RoutingTable.sameNames_ofEnsemble e r.self self) hsuits,
        hc.of_le hle⟩
    · cases hn'
      exact ih.2.home
  | move h hev hn' ih => exact ⟨ih.1.step hn', ih.2.move hev hn'⟩

/-! ## Asking now -/

/-- The request for the command is answered like this if the nodes to which it goes reply
out of the stores that they have now, in whatever order. -/
def Gives (n : Network) (r : Router) (c : Command) (a : Except ClusterError Answer) : Prop :=
  ∃ p, r.plan c = .ok p ∧ ∃ replies : Nat → Reply,
    (∀ i send, p.sends[i]? = some send →
      ∃ s, n.store? send.1.name = some s ∧ replies i = (s.handle send.2).1) ∧
    ∀ js : List Nat, js.Perm (List.range p.sends.length) →
      ((Request.ofPlan (.ok p)).complete (js.map fun j => (j, .ofReply (replies j)))).answer =
        some a

variable {r : Router} {b i : String} {ns : { ns : List Node // 0 < ns.length }}
    {stores : String → Store}

theorem handle_getKeys (s : Store) :
    (s.handle ⟨i, .getKeys b⟩).1 = .ok (.keys (s.contents b).keySet) :=
  rfl

theorem handle_getValue (s : Store) (k : Key) :
    (s.handle ⟨i, .getValue b k none⟩).1 = .ok (.value ((s.contents b).get? k)) := by
  have hcalm : s.crashes (.getValue b k none) = false := by
    simp [Store.crashes, Operation.predicate?, Operators.filter, Store.crashesOn, Filter.all]
  rw [Store.handle_of_calm hcalm, Store.apply_getValue i (f := .all) rfl]
  cases (s.contents b).get? k <;> rfl

/-- The keys that the named nodes have together. -/
def allKeys (stores : String → Store) (b : String) (names : List String) : KeySet :=
  .ofList (names.flatMap fun name => ((stores name).contents b).keySet.entries)

theorem contains_allKeys {names : List String} {k : Key} :
    (allKeys stores b names).contains k = true ↔
    ∃ name ∈ names, ((stores name).contents b).contains k = true := by
  rw [allKeys, SortedMap.contains_ofList, List.map_flatMap, List.mem_flatMap]
  refine exists_congr fun name => and_congr_right fun _ => ?_
  rw [← SortedMap.contains_iff_mem_keys, SortedMap.contains_keySet]

theorem allKeys_perm {names names' : List String} (hp : names.Perm names') :
    allKeys stores b names = allKeys stores b names' := by
  refine SortedSet.ext_contains fun k => ?_
  rw [contains_allKeys, contains_allKeys]
  exact exists_congr fun name => and_congr_left fun _ => hp.mem_iff

/-- Listing a bucket gives the keys of all its nodes. -/
theorem gives_getKeys (hns : r.table.clusterNodes b = .ok ns)
    (hstores : ∀ name ∈ r.table.members b, n.store? name = some (stores name)) :
    n.Gives r ⟨i, .getKeys b⟩ (.ok (.keys (allKeys stores b (r.table.members b)))) := by
  have hmembers := RoutingTable.members_of_clusterNodes hns
  have hplan : r.plan ⟨i, .getKeys b⟩ = .ok ⟨ns.val.map (·, ⟨i, .getKeys b⟩), .keys⟩ := by
    simp only [Router.plan, Operation.predicate?, Operators.filter, Router.toAll, hns]
    rfl
  let name (j : Nat) : String := ((r.table.members b)[j]?).getD ""
  let part (j : Nat) : KeySet := ((stores (name j)).contents b).keySet
  refine ⟨_, hplan, fun j => .ok (.keys (part j)), ?_, ?_⟩
  · intro j send hs
    rw [List.getElem?_map, Option.map_eq_some_iff] at hs
    obtain ⟨m, hm, rfl⟩ := hs
    have hname : name j = m.name := by
      simp only [name, hmembers, List.getElem?_map, hm]
      rfl
    have hmem : m.name ∈ r.table.members b := by
      rw [hmembers]
      exact List.mem_map_of_mem (List.mem_of_getElem? hm)
    refine ⟨_, hstores _ hmem, ?_⟩
    rw [handle_getKeys, ← hname]
  · intro js hjs
    have hparts := Merge.answer_keys (js.map part)
    have hnames : (js.map name).Perm (r.table.members b) := by
      have hall : (List.range (r.table.members b).length).map name = r.table.members b := by
        refine List.ext_getElem (by simp) ?_
        intro j _ hj
        simp [name, hj]
      have hlen : (ns.val.map (·, (⟨i, .getKeys b⟩ : Command))).length =
          (r.table.members b).length := by
        rw [hmembers, List.length_map, List.length_map]
      rw [hlen] at hjs
      rw [← hall]
      exact hjs.map name
    rw [List.map_map] at hparts
    have hall : SortedMap.ofList ((js.map part).flatMap SortedMap.entries) =
        allKeys stores b (r.table.members b) := by
      rw [← allKeys_perm hnames, allKeys, List.flatMap_map, List.flatMap_map]
    refine (Request.answer_complete _ hjs fun j => .keys (part j)).trans ?_
    exact congrArg (fun a => some (Except.mapError ClusterError.processing a))
      (hparts.trans (congrArg (fun ks => Except.ok (Answer.keys ks)) hall))

/-- Reading a key gives what its holder has. -/
theorem gives_getValue (hns : r.table.clusterNodes b = .ok ns)
    (hstores : ∀ name ∈ r.table.members b, n.store? name = some (stores name)) (k : Key) :
    ∃ name ∈ r.table.members b, r.table.holder b k = some name ∧
      n.Gives r ⟨i, .getValue b k none⟩ (.ok (.value (((stores name).contents b).get? k))) := by
  have hholder := RoutingTable.holder_of_clusterNodes hns k
  have hmem := RoutingTable.mem_members_of_holder hholder
  have hplan : r.plan ⟨i, .getValue b k none⟩ =
      .ok (.direct (r.table.owner b ns k) ⟨i, .getValue b k none⟩) := by
    simp only [Router.plan, Operation.predicate?, Operators.filter, Router.toOwner,
      RoutingTable.nodeFor, hns]
    rfl
  refine ⟨_, hmem, hholder, _, hplan,
    fun _ => .ok (.value (((stores (r.table.owner b ns k).name).contents b).get? k)), ?_, ?_⟩
  · intro j send hs
    rw [List.mem_singleton.1 (List.mem_of_getElem? hs)]
    exact ⟨_, hstores _ hmem, (handle_getValue _ k).symm⟩
  · intro js hjs
    have hone : js = [0] := List.perm_singleton.1 hjs
    subst hone
    exact Request.answer_complete _ (.refl _) _

/-- **What is listed can be read, backups excepted.**  After any requests to any
coordinators of a healthy cluster, every key of a bucket that can be read is listed.  If no
backup has brought a key to the wrong node of the bucket, all that is listed can be read,
and the nodes of the bucket store each key where it belongs. -/
theorem listing_agrees (hn₀ : Healthy e ops n₀) (h : Run e n₀ imports n) (hb : e.Serves b)
    (r r' : Router) (hr : r.table = .ofEnsemble e r.self) (hr' : r'.table = .ofEnsemble e r'.self)
    (i i' : String) :
    ∃ ks : KeySet, n.Gives r ⟨i, .getKeys b⟩ (.ok (.keys ks)) ∧
      (∀ k, ∃ v, n.Gives r' ⟨i', .getValue b k none⟩ (.ok (.value v)) ∧
        (v.isSome = true → ks.contains k = true) ∧
        ((∀ m ∈ imports, m.bucket = b → m.AtHome e) → ks.contains k = true → v.isSome = true)) ∧
      ((∀ m ∈ imports, m.bucket = b → m.AtHome e) → ∀ name s k, name ∈ r.table.members b →
        n.store? name = some s → (s.contents b).contains k = true →
        r.table.holder b k = some name) := by
  obtain ⟨ns, hns⟩ := hb.clusterNodes r.self
  obtain ⟨ns', hns'⟩ := hb.clusterNodes r'.self
  rw [← hr] at hns
  rw [← hr'] at hns'
  have hsame : r.table.SameNames r'.table := by
    rw [hr, hr']
    exact RoutingTable.sameNames_ofEnsemble e r.self r'.self
  obtain ⟨hconnected, hplaced⟩ := h.placed hn₀ r.self
  rw [← hr] at hplaced
  let stores (name : String) : Store := (n.store? name).getD (.empty ops (.absent ""))
  have hstores : ∀ name ∈ r.table.members b, n.store? name = some (stores name) := by
    intro name hname
    rw [hr] at hname
    obtain ⟨x, hx⟩ :=
      hconnected.known name (((RoutingTable.distinct_ofEnsemble e r.self).members b).2 name hname)
    simp only [stores, store?, hx]
    rfl
  have hhome (himports : ∀ m ∈ imports, m.bucket = b → m.AtHome e) (name : String) (s : Store)
      (k : Key) (hname : name ∈ r.table.members b) (hs : n.store? name = some s)
      (hk : (s.contents b).contains k = true) :
      r.table.holder b k = some name := by
    obtain ⟨x, hx, rfl⟩ := Option.map_eq_some_iff.1 hs
    rcases hplaced.home name x b k hx hk with hholder | ⟨m, hm, rfl, rfl, hmem⟩
    · exact hholder
    · have hhome := himports m hm rfl r.self
      rw [← hr] at hhome
      exact hhome hname k hmem
  refine ⟨_, gives_getKeys hns hstores, fun k => ?_, hhome⟩
  rw [hsame.members] at hstores
  obtain ⟨name, hname, hholder, hgives⟩ := gives_getValue (i := i') hns' hstores k
  rw [← hsame.members] at hname hstores
  rw [← hsame.holder] at hholder
  refine ⟨_, hgives, ?_, ?_⟩
  · intro hv
    exact contains_allKeys.2 ⟨name, hname, hv⟩
  · intro himports hk
    obtain ⟨name', hname', hk'⟩ := contains_allKeys.1 hk
    -- the node that has the key is the one that is asked for it
    obtain rfl :=
      Option.some.inj
        (hholder.symm.trans (hhome himports name' _ k hname' (hstores name' hname') hk'))
    exact hk'

/-! ## A copied key -/

/-- The network after the given steps, with the backups that are read in them. -/
def afterReading (n : Network) : List Event → Option (List Import × Network)
  | [] => some ([], n)
  | ev :: evs => do
    let m ← n.step ev
    let (more, n') ← m.afterReading evs
    some ((n.import? ev).toList ++ more, n')

/-- The step is one that a run can take: one of the network itself, or a command that comes
to a coordinator. -/
def Event.Happens (e : Ensemble) (ev : Event) : Prop :=
  ev.isInternal = true ∨ ∃ (r : Router) (c : Command),
    r.table = .ofEnsemble e r.self ∧ Command.schema.Fits c ∧ ev = .request (r.plan c)

theorem Run.after (h : Run e n₀ imports n) {evs : List Event} (hevs : ∀ ev ∈ evs, ev.Happens e)
    {more : List Import} (hn' : n.afterReading evs = some (more, n')) :
    Run e n₀ (imports ++ more) n' := by
  induction evs generalizing n imports more with
  | nil =>
    cases hn'
    rw [List.append_nil]
    exact h
  | cons ev evs ih =>
    obtain ⟨m, hm, hn'⟩ := Option.bind_eq_some_iff.1 hn'
    obtain ⟨⟨rest, n''⟩, hrest, hn'⟩ := Option.bind_eq_some_iff.1 hn'
    cases hn'
    have hevs' := fun ev' h' => hevs ev' (List.mem_cons_of_mem _ h')
    rcases hevs ev List.mem_cons_self with hev | ⟨r, c, hr, hc, rfl⟩
    · rw [← List.append_assoc]
      exact ih (h.move hev hm) hevs' hrest
    · exact ih (h.ask r hr c hc hm) hevs' hrest

def leftRouter : Router := ⟨left true, .ofEnsemble pair (left true), .empty⟩

def rightRouter : Router := ⟨right true, .ofEnsemble pair (right true), .empty⟩

theorem leftRouter_eq : leftRouter = ⟨left true, ⟨.ofCount 16, [⟨"c", true⟩],
    .ofList [("c", [left true, right false])], .ofList [("b", "c")]⟩, .empty⟩ := by
  rw [leftRouter, table_left]

theorem serves_pair : pair.Serves "b" := ⟨left true, by rw [table_left]; decide +kernel⟩

/-- A key is put into one bucket, and copied to another one by way of a backup. -/
def copying (k : Key) : List Command :=
  [⟨"1", .putValue "a" k ⟨[1]⟩ none⟩, ⟨"2", .exportBackup "a" "f"⟩, ⟨"3", .importBackup "b" "f"⟩]

/-- `left` gets the commands one after the other, and works on each as soon as it comes. -/
def onLeft (cs : List Command) : List Event :=
  cs.zipIdx.flatMap fun (c, i) =>
    .request (leftRouter.plan c) :: .send i 0 :: work "left" i (if i = 0 then 6 else 7) ++
      [.receive i 0]

theorem happens_work {name : String} {number steps : Nat} :
    ∀ ev ∈ work name number steps, ev.Happens e := by
  intro ev hev
  rcases List.mem_cons.1 hev with rfl | hev
  · exact .inl rfl
  · rw [List.eq_of_mem_replicate hev]
    exact .inl rfl

theorem happens_onLeft {cs : List Command} (hcs : ∀ c ∈ cs, Command.schema.Fits c) :
    ∀ ev ∈ onLeft cs, ev.Happens pair := by
  intro ev hev
  obtain ⟨⟨c, i⟩, hc, hev⟩ := List.mem_flatMap.1 hev
  have hmem : c ∈ cs := List.mem_of_getElem? (List.mem_zipIdx_iff_getElem?.1 hc)
  rcases List.mem_cons.1 hev with rfl | hev
  · exact .inr ⟨leftRouter, c, rfl, hcs c hmem, rfl⟩
  · rcases List.mem_cons.1 hev with rfl | hev
    · exact .inl rfl
    · rcases List.mem_append.1 hev with hev | hev
      · exact happens_work ev hev
      · rw [List.mem_singleton.1 hev]
        exact .inl rfl

theorem fits_copying : ∀ k ∈ [(⟨[107]⟩ : Key), ⟨[122]⟩], ∀ c ∈ copying k,
    Command.schema.Fits c := by
  decide +kernel

theorem runs_copying : ∀ k ∈ [(⟨[107]⟩ : Key), ⟨[122]⟩],
    (pairNetwork.afterReading (onLeft (copying k))).any (fun r => r.1 == [⟨"left", "b", [k]⟩]) =
      true := by
  unfold onLeft
  rw [leftRouter_eq]
  decide +kernel

/-- The key `z` belongs to `left` in both buckets, and can be read from the copy. -/
theorem listing_agrees_copying : ∃ n, Run pair pairNetwork [⟨"left", "b", [⟨[122]⟩]⟩] n ∧
    ∃ ks : KeySet, n.Gives leftRouter ⟨"4", .getKeys "b"⟩ (.ok (.keys ks)) ∧
      ∀ k, ∃ v, n.Gives rightRouter ⟨"5", .getValue "b" k none⟩ (.ok (.value v)) ∧
        (v.isSome = true ↔ ks.contains k = true) := by
  obtain ⟨⟨more, n⟩, hn, hmore⟩ := Option.any_eq_true .. |>.1 (runs_copying ⟨[122]⟩ (by simp))
  obtain rfl := eq_of_beq hmore
  have hrun : Run pair pairNetwork [⟨"left", "b", [⟨[122]⟩]⟩] n :=
    Run.start.after (happens_onLeft (fits_copying _ (by simp))) hn
  have hhome : ∀ m ∈ [(⟨"left", "b", [⟨[122]⟩]⟩ : Import)], m.bucket = "b" → m.AtHome pair := by
    intro m hm _ self _ k hk
    rw [List.mem_singleton.1 hm] at hk ⊢
    rw [List.mem_singleton.1 hk, (RoutingTable.sameNames_ofEnsemble pair self (left true)).holder,
      table_left]
    decide +kernel
  obtain ⟨ks, hks, hvalues, -⟩ :=
    listing_agrees healthy_pair hrun
    serves_pair leftRouter rightRouter rfl rfl "4" "5"
  refine ⟨n, hrun, ks, hks, fun k => ?_⟩
  obtain ⟨v, hv, hlisted, hread⟩ := hvalues k
  exact ⟨v, hv, hlisted, hread hhome⟩

/-- The copy is listed, and the key is read from it. -/
def readingCopy (k : Key) : List Event :=
  .request (leftRouter.plan ⟨"4", .getKeys "b"⟩) :: .send 3 0 :: .send 3 1 ::
    work "left" 3 7 ++ work "right" 0 6 ++ [.receive 3 0, .receive 3 1] ++
    .request (leftRouter.plan ⟨"5", .getValue "b" k none⟩) :: .send 4 0 :: work "right" 1 7 ++
      [.receive 4 0]

theorem happens_readingCopy (k : Key) (hk : Command.schema.Fits ⟨"5", .getValue "b" k none⟩) :
    ∀ ev ∈ readingCopy k, ev.Happens pair := by
  have hlisting : Command.schema.Fits ⟨"4", .getKeys "b"⟩ := by decide +kernel
  have hask {c : Command} (hc : Command.schema.Fits c) :
      Event.Happens pair (.request (leftRouter.plan c)) :=
    .inr ⟨leftRouter, c, rfl, hc, rfl⟩
  simp only [readingCopy, List.forall_mem_append, List.forall_mem_cons]
  exact ⟨⟨⟨⟨⟨hask hlisting, .inl rfl, .inl rfl, happens_work⟩, happens_work⟩, .inl rfl,
      .inl rfl, nofun⟩,
    hask hk, .inl rfl, happens_work⟩, .inl rfl, nofun⟩

theorem answers_readingCopy :
    (pairNetwork.afterReading (onLeft (copying ⟨[107]⟩) ++ readingCopy ⟨[107]⟩)).any
      (fun r => r.2.requests.map (·.answer) ==
        [some (.ok .done), some (.ok (.count 1)), some (.ok (.count 1)),
          some (.ok (.keys (.ofElements [⟨[107]⟩]))), some (.ok (.value none))]) = true := by
  unfold onLeft readingCopy
  rw [leftRouter_eq]
  decide +kernel

/-- The key `k` belongs to `left` in one bucket and to `right` in the other: it is listed,
and cannot be read. -/
theorem listed_unreadable :
    ∃ n imports, Healthy pair .empty pairNetwork ∧ Run pair pairNetwork imports n ∧
    pair.Serves "b" ∧ n.requests.map (·.answer) =
      [some (.ok .done), some (.ok (.count 1)), some (.ok (.count 1)),
      some (.ok (.keys (.ofElements [⟨[107]⟩]))), some (.ok (.value none))] := by
  obtain ⟨⟨imports, n⟩, hn, hanswers⟩ := Option.any_eq_true .. |>.1 answers_readingCopy
  refine ⟨n, imports, healthy_pair, Run.start.after ?_ hn,
    serves_pair, eq_of_beq hanswers⟩
  rw [List.forall_mem_append]
  exact ⟨happens_onLeft (fits_copying _ (by simp)), happens_readingCopy _ (by decide +kernel)⟩

end Network

end BucketCluster
