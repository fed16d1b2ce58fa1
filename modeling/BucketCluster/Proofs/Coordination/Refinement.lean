import BucketCluster.Proofs.Coordination.Delivery
import BucketCluster.Proofs.Coordination.Merging

/-!
# A plan does to the shards what its command does to the whole

`plan_refines` takes shards of a whole store, a command and the plan that a
coordinator makes of it: whoever carries the plan out, each part at its node, has
shards of what the command makes of the whole, and the replies, merged in whatever
order they come, are the answer that the whole would have given.
-/

namespace BucketCluster

/-! ## Plain commands -/

/-- Reads and writes of documents, with an update function that is known and a comparator, if it is
known, that orders all keys and takes none for another. -/
def Operation.Plain (ops : Operators) : Operation → Prop
  | getBuckets => False
  | importBackup .. => False
  | exportBackup .. => False
  | updateValue _ _ u => ops.functions.contains u.function = true
  | rangeQuery _ range _ => ∀ order, ops.comparator range.comparatorName = .ok order →
      Std.TransCmp order ∧ Std.LawfulEqCmp order
  | _ => True

variable {t : RoutingTable} {stores : String → Store} {whole : Store} {names : List String}
  {b : String} {k : Key} {f : Filter} {p : Option Predicate}

/-- What crashes at a node crashes on the whole. -/
theorem Shards.crashesOn_false (h : Shards t stores whole) {n : String} (hn : n ∈ t.members b)
    {picks picks' : Key → Bool} (hpicks : ∀ k, picks k = true → picks' k = true)
    (hcalm : whole.crashesOn b f picks' = false) : (stores n).crashesOn b f picks = false := by
  rw [Store.crashesOn, List.any_eq_false] at hcalm ⊢
  rw [h.share b n hn]
  intro e he hc
  rw [Bool.and_eq_true] at hc
  apply hcalm e (List.mem_filter.1 he).1
  rw [hpicks _ hc.1, hc.2]
  rfl

/-- Asking a node for its share of the keys is asking it for all of them. -/
theorem Shards.filter_share (h : Shards t stores whole) {n : String} (hn : n ∈ t.members b)
    {ks share : KeySet} (hshare : share = ks.filter fun k _ => t.holder b k == some n) :
    ((stores n).contents b).filter (fun k d => share.contains k && f.keeps k d) =
      ((stores n).contents b).filter fun k d => ks.contains k && f.keeps k d := by
  apply SortedMap.ext_get?
  intro k
  rw [SortedMap.get?_filter, SortedMap.get?_filter, h.share b n hn, SortedMap.get?_filter, hshare,
    SortedMap.contains_filter]
  cases (whole.contents b).get? k with
  | none => rfl
  | some d => cases t.holder b k == some n <;> simp [Option.filter]

/-! ## Every kind of command -/

/-- A coordinator whose table leads to shards of the whole, for a bucket that has nodes. -/
structure Router.Ready (r : Router) (names : List String) (stores : String → Store) (whole : Store)
    (b : String) (ns : { ns : List Node // 0 < ns.length }) : Prop where
  shards : Shards r.table stores whole
  operators : whole.operators = r.operators
  distinct : r.table.Distinct names
  nodes : r.table.clusterNodes b = .ok ns

/-- The plan of the command does to the shards what the command does to the whole. -/
def Router.Refines (r : Router) (names : List String) (stores : String → Store) (whole : Store)
    (c : Command) : Prop :=
  ∃ p, r.plan c = .ok p ∧ p.Faithful names stores ((whole.apply c).1.mapError .ofStore) ∧
    Shards r.table (p.after stores) (whole.apply c).2

namespace Router

variable {r : Router} {ns : { ns : List Node // 0 < ns.length }} {i : String}

theorem Ready.members (h : r.Ready names stores whole b ns) :
    r.table.members b = ns.val.map (·.name) :=
  RoutingTable.members_of_clusterNodes h.nodes

theorem Ready.holder (h : r.Ready names stores whole b ns) (k : Key) :
    r.table.holder b k = some (r.table.owner b ns k).name :=
  RoutingTable.holder_of_clusterNodes h.nodes k

theorem Ready.owner_mem (h : r.Ready names stores whole b ns) (k : Key) :
    (r.table.owner b ns k).name ∈ r.table.members b :=
  r.table.mem_members_of_holder (h.holder k)

theorem Ready.owner_known (h : r.Ready names stores whole b ns) (k : Key) :
    (r.table.owner b ns k).name ∈ names :=
  (h.distinct.members b).2 _ (h.owner_mem k)

theorem Ready.toOwner (h : r.Ready names stores whole b ns) (c : Command) (k : Key) :
    r.toOwner c b k = .ok (.direct (r.table.owner b ns k) c) := by
  unfold Router.toOwner RoutingTable.nodeFor
  rw [h.nodes]
  rfl

theorem Ready.filter (h : r.Ready names stores whole b ns) (hf : r.operators.filter p = .ok f)
    (n : String) : (stores n).operators.filter p = .ok f := by
  rw [h.shards.operators, h.operators, hf]

theorem Ready.filter_whole (h : r.Ready names stores whole b ns)
    (hf : r.operators.filter p = .ok f) : whole.operators.filter p = .ok f := by
  rw [h.operators, hf]

/-! ### Commands on one key -/

theorem Ready.owner_refines (h : r.Ready names stores whole b ns) {c : Command} (k : Key)
    (hplan : r.plan c = .ok (.direct (r.table.owner b ns k) c)) (hc : c.Calm whole)
    (hcalm : (stores (r.table.owner b ns k).name).crashes c.operation = false)
    (happly : ((stores (r.table.owner b ns k).name).apply c).1 = (whole.apply c).1)
    (hshards : Shards r.table (fun n => if n = (r.table.owner b ns k).name
      then ((stores (r.table.owner b ns k).name).apply c).2 else stores n) (whole.apply c).2) :
    r.Refines names stores whole c :=
  ⟨_, hplan, direct_faithful (h.owner_known k) hc hcalm happly, by rwa [direct_after _ _ _ hcalm]⟩

theorem if_same_store (stores : String → Store) (m : String) :
    (fun n => if n = m then stores m else stores n) = stores := by
  funext n
  split
  · next h => rw [h]
  · rfl

theorem refines_getValue (h : r.Ready names stores whole b ns) (hf : r.operators.filter p = .ok f)
    (hc : Command.Calm ⟨i, .getValue b k p⟩ whole) :
    r.Refines names stores whole ⟨i, .getValue b k p⟩ := by
  have hnode := Store.apply_getValue (k := k) (b := b) i (h.filter hf (r.table.owner b ns k).name)
  have hwhole := Store.apply_getValue (k := k) (b := b) i (h.filter_whole hf)
  rw [h.shards.get?_holder (h.holder k)] at hnode
  refine h.owner_refines k ?_ hc ?_ (by rw [hnode, hwhole]) ?_
  · simp only [plan, Operation.predicate?, hf, h.toOwner]
    rfl
  · have hcalm := hc.calm
    simp only [Store.crashes, Operation.predicate?, h.filter hf, h.filter_whole hf] at hcalm ⊢
    exact h.shards.crashesOn_false (h.owner_mem k) (fun _ => id) hcalm
  · rw [hnode, hwhole]
    simp only [if_same_store]
    exact h.shards

theorem refines_putValue (h : r.Ready names stores whole b ns) (hf : r.operators.filter p = .ok f)
    {d : Document} (hc : Command.Calm ⟨i, .putValue b k d p⟩ whole) :
    r.Refines names stores whole ⟨i, .putValue b k d p⟩ := by
  have hnode := Store.apply_putValue (k := k) (b := b) i d (h.filter hf (r.table.owner b ns k).name)
  have hwhole := Store.apply_putValue (k := k) (b := b) i d (h.filter_whole hf)
  rw [h.shards.get?_holder (h.holder k)] at hnode
  refine h.owner_refines k ?_ hc ?_ ?_ ?_
  · simp only [plan, Operation.predicate?, hf, h.toOwner]
    rfl
  · have hcalm := hc.calm
    simp only [Store.crashes, Operation.predicate?, h.filter hf, h.filter_whole hf] at hcalm ⊢
    exact h.shards.crashesOn_false (h.owner_mem k) (fun _ => id) hcalm
  · rw [hnode, hwhole]
    split <;> rfl
  · rw [hnode, hwhole]
    split
    · exact h.shards.store (h.holder k) d
    · simp only [if_same_store]
      exact h.shards

theorem refines_removeValue (h : r.Ready names stores whole b ns)
    (hc : Command.Calm ⟨i, .removeValue b k⟩ whole) :
    r.Refines names stores whole ⟨i, .removeValue b k⟩ := by
  refine h.owner_refines k ?_ hc rfl ?_ ?_
  · simp only [plan, Operation.predicate?, Operators.filter, h.toOwner]
    rfl
  · rw [Store.apply_removeValue, Store.apply_removeValue]
  · rw [Store.apply_removeValue, Store.apply_removeValue]
    exact h.shards.remove (h.holder k)

theorem refines_updateValue (h : r.Ready names stores whole b ns) {u : Update} {g : UpdateFunction}
    (hg : r.operators.function u.function = .ok g)
    (hc : Command.Calm ⟨i, .updateValue b k u⟩ whole) :
    r.Refines names stores whole ⟨i, .updateValue b k u⟩ := by
  have hops : ∀ n, (stores n).operators = r.operators :=
    fun n => by rw [h.shards.operators, h.operators]
  have hnode := Store.apply_updateValue (s := stores (r.table.owner b ns k).name) (k := k)
    (b := b) i (by rw [hops, hg])
  have hwhole := Store.apply_updateValue (s := whole) (k := k) (b := b) i (by rw [h.operators, hg])
  have hget := h.shards.get?_holder (h.holder k)
  rw [hget] at hnode
  refine h.owner_refines k ?_ hc ?_ ?_ ?_
  · simp only [plan, Operation.predicate?, Operators.filter, h.toOwner]
    rfl
  · have hcalm := hc.calm
    simp only [Store.crashes, Operation.predicate?, Operators.filter, Store.updateCrashes,
      hget, hops, h.operators] at hcalm ⊢
    exact hcalm
  · rw [hnode, hwhole]
    cases (whole.contents b).get? k with
    | none => rfl
    | some d =>
      simp only
      cases g.updated k d u <;> rfl
  · rw [hnode, hwhole]
    cases (whole.contents b).get? k with
    | none =>
      simp only [if_same_store]
      exact h.shards
    | some d =>
      simp only
      cases g.updated k d u with
      | ok d' => exact h.shards.store (h.holder k) d'
      | error e =>
        simp only [if_same_store]
        exact h.shards

/-! ### Reads of several nodes -/

theorem Ready.gather_refines (h : r.Ready names stores whole b ns) {c : Command} {pl : Plan}
    {answer : Answer} (hplan : r.plan c = .ok pl) (part : String → Answer)
    (hdistinct : (pl.sends.map (·.1.name)).Nodup)
    (hmem : ∀ send ∈ pl.sends, send.1.name ∈ r.table.members b)
    (hfits : ∀ send ∈ pl.sends, Command.schema.Fits send.2)
    (hcalm : ∀ send ∈ pl.sends, (stores send.1.name).crashes send.2.operation = false)
    (happly : ∀ send ∈ pl.sends,
      (stores send.1.name).apply send.2 = (.ok (part send.1.name), stores send.1.name))
    (hreply : ∀ send ∈ pl.sends, Reply.schema.Fits (.ok (part send.1.name)))
    (hwhole : whole.apply c = (.ok answer, whole))
    (hmerge : ∀ ns' : List String, ns'.Perm (pl.sends.map (·.1.name)) →
      pl.merge.answer (ns'.map part) = .ok answer) : r.Refines names stores whole c := by
  refine ⟨pl, hplan, ?_, ?_⟩
  · refine gather_faithful (fun send => part send.1.name) hdistinct
      (fun send hs => (h.distinct.members b).2 _ (hmem send hs)) hfits hcalm
      (fun send hs => by rw [happly send hs]) hreply ?_
    intro sends hs
    have hm := hmerge (sends.map (·.1.name)) (hs.map _)
    rw [List.map_map] at hm
    rw [hwhole]
    exact congrArg (Except.mapError ClusterError.processing) hm
  · rw [after_of_reads hcalm fun send hs => by rw [happly send hs], hwhole]
    exact h.shards

theorem Ready.toAll (h : r.Ready names stores whole b ns) (c : Command) (merge : Merge) :
    r.toAll c b merge = .ok ⟨ns.val.map (·, c), merge⟩ := by
  unfold Router.toAll
  rw [h.nodes]
  rfl

theorem Ready.broadcast_names (h : r.Ready names stores whole b ns) (c : Command) :
    (ns.val.map (·, c)).map (·.1.name) = r.table.members b := by
  rw [h.members, List.map_map]
  rfl

theorem Ready.broadcast_send (h : r.Ready names stores whole b ns) {c : Command}
    {send : Node × Command} (hs : send ∈ ns.val.map (·, c)) :
    send.1.name ∈ r.table.members b ∧ send.2 = c := by
  obtain ⟨n, hn, rfl⟩ := List.mem_map.1 hs
  rw [h.members]
  exact ⟨List.mem_map_of_mem hn, rfl⟩

theorem Ready.broadcast_refines (h : r.Ready names stores whole b ns) {c : Command}
    {answer : Answer} (merge : Merge) (hplan : r.plan c = .ok ⟨ns.val.map (·, c), merge⟩)
    (part : String → Answer)
    (hfits : Command.schema.Fits c)
    (hcalm : ∀ n ∈ r.table.members b, (stores n).crashes c.operation = false)
    (happly : ∀ n ∈ r.table.members b, (stores n).apply c = (.ok (part n), stores n))
    (hreply : ∀ n ∈ r.table.members b, Reply.schema.Fits (.ok (part n)))
    (hwhole : whole.apply c = (.ok answer, whole))
    (hmerge : ∀ ns' : List String, ns'.Perm (r.table.members b) →
      merge.answer (ns'.map part) = .ok answer) :
    r.Refines names stores whole c := by
  have hnames := h.broadcast_names c
  have hsend : ∀ send ∈ ns.val.map (·, c), send.1.name ∈ r.table.members b ∧ send.2 = c :=
    fun _ => h.broadcast_send
  refine h.gather_refines hplan part ?_ (fun send hs => (hsend send hs).1) ?_ ?_ ?_
    (fun send hs => hreply _ (hsend send hs).1) hwhole ?_
  · rw [hnames]
    exact (h.distinct.members b).1
  · intro send hs
    rw [(hsend send hs).2]
    exact hfits
  · intro send hs
    rw [(hsend send hs).2]
    exact hcalm _ (hsend send hs).1
  · intro send hs
    rw [(hsend send hs).2]
    exact happly _ (hsend send hs).1
  · intro ns' hns'
    rw [hnames] at hns'
    exact hmerge ns' hns'

theorem Ready.holder_mem (h : r.Ready names stores whole b ns) {ns' : List String}
    (hns' : ns'.Perm (r.table.members b)) (k : Key) : ∃ n ∈ ns', r.table.holder b k = some n :=
  ⟨_, hns'.mem_iff.2 (h.owner_mem k), h.holder k⟩

theorem refines_getKeys (h : r.Ready names stores whole b ns)
    (hc : Command.Calm ⟨i, .getKeys b⟩ whole) : r.Refines names stores whole ⟨i, .getKeys b⟩ := by
  refine h.broadcast_refines .keys ?_ (fun n => .keys ((stores n).contents b).keySet)
    hc.command_fits
    (fun n _ => rfl) (fun n _ => Store.apply_getKeys i) ?_ (Store.apply_getKeys i) ?_
  · simp only [plan, Operation.predicate?, Operators.filter, h.toAll]
    rfl
  · intro n hn
    refine Reply.fits_keys ?_ hc.reply_fits
    rw [h.shards.share b n hn]
    exact List.filter_sublist.map _
  · intro ns' hns'
    exact h.shards.merge_keys (hns'.nodup_iff.2 (h.distinct.members b).1) (fun n => hns'.mem_iff.1)
      (h.holder_mem hns')

theorem refines_predicateQuery (h : r.Ready names stores whole b ns) {p : Predicate}
    (hf : r.operators.filter (some p) = .ok f) (hc : Command.Calm ⟨i, .predicateQuery b p⟩ whole) :
    r.Refines names stores whole ⟨i, .predicateQuery b p⟩ := by
  have hwhole := Store.apply_predicateQuery (b := b) i (h.filter_whole hf)
  have hreply := hc.reply_fits
  rw [hwhole] at hreply
  refine h.broadcast_refines .values ?_ (fun n => .values (((stores n).contents b).filter f.keeps))
    hc.command_fits ?_ (fun n _ => Store.apply_predicateQuery i (h.filter hf n)) ?_ hwhole ?_
  · simp only [plan, Operation.predicate?, hf, h.toAll]
    rfl
  · intro n hn
    have hcalm := hc.calm
    simp only [Store.crashes, Operation.predicate?, h.filter hf, h.filter_whole hf] at hcalm ⊢
    exact h.shards.crashesOn_false hn (fun _ => id) hcalm
  · intro n hn
    refine Reply.fits_values ?_ hreply
    rw [h.shards.share b n hn]
    exact List.filter_sublist.filter _
  · intro ns' hns'
    exact h.shards.merge_values f.keeps (hns'.nodup_iff.2 (h.distinct.members b).1)
      (fun n => hns'.mem_iff.1) fun k _ _ _ => h.holder_mem hns' k

theorem refines_rangeQuery (h : r.Ready names stores whole b ns) {range : KeyRange}
    {order : Comparator} (horder : r.operators.comparator range.comparatorName = .ok order)
    (htrans : Std.TransCmp order)
    (hlaw : Std.LawfulEqCmp order) (hf : r.operators.filter p = .ok f)
    (hc : Command.Calm ⟨i, .rangeQuery b range p⟩ whole) :
    r.Refines names stores whole ⟨i, .rangeQuery b range p⟩ := by
  have hops : ∀ n, (stores n).operators = r.operators :=
    fun n => by rw [h.shards.operators, h.operators]
  have hwhole :=
    Store.apply_rangeQuery (s := whole) (b := b) i (by rw [h.operators, horder]) (h.filter_whole hf)
  refine h.broadcast_refines (.entries order range) ?_
    (fun n => .entries (range.select order f ((stores n).contents b).entries)) hc.command_fits ?_
    (fun n _ => Store.apply_rangeQuery i (by rw [hops, horder]) (h.filter hf n)) ?_ hwhole ?_
  · simp only [plan, Operation.predicate?, hf, horder, h.toAll]
    rfl
  · intro n hn
    have hcalm := hc.calm
    simp only [Store.crashes, Operation.predicate?, hops, h.operators, hf, horder] at hcalm ⊢
    exact h.shards.crashesOn_false hn (fun _ => id) hcalm
  · intro n hn
    refine Reply.fits_entries (range.truncate_sublist _) (KeyRange.sortEntries_perm order _) ?_
      (hc.contents_fit b rfl)
    rw [h.shards.share b n hn]
    exact List.filter_sublist.trans List.filter_sublist
  · intro ns' hns'
    exact h.shards.merge_entries range order f (hns'.nodup_iff.2 (h.distinct.members b).1)
      (fun n => hns'.mem_iff.1) (h.holder_mem hns')

theorem refines_getValues (h : r.Ready names stores whole b ns) {ks : KeySet}
    (hf : r.operators.filter p = .ok f) (hc : Command.Calm ⟨i, .getValues b ks p⟩ whole) :
    r.Refines names stores whole ⟨i, .getValues b ks p⟩ := by
  obtain ⟨shares, hshares, hdistinct, hmem, hall⟩ :=
    RoutingTable.nodesFor_of_clusterNodes h.nodes (h.distinct.members b).1 ks
  have hwhole := Store.apply_getValues (b := b) i ks (h.filter_whole hf)
  have hreply := hc.reply_fits
  rw [hwhole] at hreply
  let send (sh : Node × KeySet) : Node × Command := (sh.1, ⟨i, .getValues b sh.2 p⟩)
  have hnames : (shares.map send).map (·.1.name) = shares.map (·.1.name) := by
    rw [List.map_map]
    rfl
  have hplan : r.plan ⟨i, .getValues b ks p⟩ = .ok ⟨shares.map send, .values⟩ := by
    simp only [plan, Operation.predicate?, hf, hshares]
    rfl
  refine h.gather_refines hplan
    (fun n => .values (((stores n).contents b).filter fun k d => ks.contains k && f.keeps k d))
    ?_ ?_ ?_ ?_ ?_ ?_ hwhole ?_
  · rw [hnames]
    exact hdistinct
  · intro s hs
    obtain ⟨sh, hsh, rfl⟩ := List.mem_map.1 hs
    exact (hmem sh hsh).1
  · intro s hs
    obtain ⟨sh, hsh, rfl⟩ := List.mem_map.1 hs
    refine hc.command_fits.of_le (Command.length_narrowed ?_ i b p)
    rw [(hmem sh hsh).2]
    exact List.filter_sublist
  · intro s hs
    obtain ⟨sh, hsh, rfl⟩ := List.mem_map.1 hs
    have hcalm := hc.calm
    simp only [send, Store.crashes, Operation.predicate?, h.filter hf, h.filter_whole hf] at hcalm ⊢
    refine h.shards.crashesOn_false (hmem sh hsh).1 ?_ hcalm
    intro k hk
    rw [(hmem sh hsh).2, SortedMap.contains_filter, Bool.and_eq_true] at hk
    exact hk.1
  · intro s hs
    obtain ⟨sh, hsh, rfl⟩ := List.mem_map.1 hs
    rw [← h.shards.filter_share (hmem sh hsh).1 (hmem sh hsh).2]
    exact Store.apply_getValues i sh.2 (h.filter hf sh.1.name)
  · intro s hs
    obtain ⟨sh, hsh, rfl⟩ := List.mem_map.1 hs
    refine Reply.fits_values ?_ hreply
    rw [h.shards.share b _ (hmem sh hsh).1]
    exact List.filter_sublist.filter _
  · intro ns' hns'
    rw [hnames] at hns'
    refine h.shards.merge_values _ (hns'.nodup_iff.2 hdistinct) ?_ ?_
    · intro n hn
      obtain ⟨sh, hsh, rfl⟩ := List.mem_map.1 (hns'.mem_iff.1 hn)
      exact (hmem sh hsh).1
    · intro k d _ hk
      rw [Bool.and_eq_true] at hk
      obtain ⟨sh, hsh, hholder⟩ := hall k hk.1
      exact ⟨_, hns'.mem_iff.2 (List.mem_map_of_mem hsh), hholder⟩

/-! ### Dropping a bucket -/

theorem refines_removeBucket (h : r.Ready names stores whole b ns)
    (hc : Command.Calm ⟨i, .removeBucket b⟩ whole) :
    r.Refines names stores whole ⟨i, .removeBucket b⟩ := by
  have hplan : r.plan ⟨i, .removeBucket b⟩ = .ok ⟨ns.val.map (·, ⟨i, .removeBucket b⟩), .done⟩ := by
    simp only [plan, Operation.predicate?, Operators.filter, h.toAll]
    rfl
  refine ⟨_, hplan, ?_, ?_⟩
  · refine gather_faithful (fun _ => .done) ?_ ?_ ?_ ?_ ?_ (fun send hs => hc.reply_fits)
      fun _ _ => rfl
    · rw [h.broadcast_names]
      exact (h.distinct.members b).1
    · intro send hs
      exact (h.distinct.members b).2 _ (h.broadcast_send hs).1
    · intro send hs
      rw [(h.broadcast_send hs).2]
      exact hc.command_fits
    · intro send hs
      rw [(h.broadcast_send hs).2]
      rfl
    · intro send hs
      rw [(h.broadcast_send hs).2]
      rfl
  · have hafter : Plan.after ⟨ns.val.map (·, ⟨i, .removeBucket b⟩), .done⟩ stores =
        fun n => if n ∈ r.table.members b then (stores n).drop b else stores n := by
      funext n
      rw [Plan.after]
      cases hs : (ns.val.map (·, (⟨i, .removeBucket b⟩ : Command))).find? (·.1.name == n) with
      | some send =>
        obtain ⟨hin, hcmd⟩ := h.broadcast_send (List.mem_of_find?_eq_some hs)
        have hname : send.1.name = n := by simpa using List.find?_some hs
        rw [hname] at hin
        simp only [hcmd, if_pos hin]
        rfl
      | none =>
        have hout : n ∉ r.table.members b := by
          intro hin
          rw [← h.broadcast_names ⟨i, .removeBucket b⟩] at hin
          obtain ⟨send, hsend, hname⟩ := List.mem_map.1 hin
          have := List.find?_eq_none.1 hs send hsend
          simp [hname] at this
        simp only [if_neg hout]
    rw [hafter, Store.apply_removeBucket]
    exact h.shards.drop b

/-! ### All kinds -/

/-- **A plan refines its command.**  A coordinator either finds the operator missing that the whole
finds missing, or makes a plan that does to the shards what the command does to the whole. -/
theorem plan_refines {c : Command} (h : r.Ready names stores whole b ns)
    (hb : c.operation.bucket? = some b) (hplain : c.operation.Plain r.operators)
    (hc : c.Calm whole) :
    (∃ e, r.plan c = .error (.ofStore e) ∧ whole.apply c = (.error e, whole)) ∨
      r.Refines names stores whole c := by
  obtain ⟨i, op⟩ := c
  cases hf : r.operators.filter op.predicate? with
  | error e =>
    refine .inl ⟨e, ?_, ?_⟩
    · simp only [plan, hf]
      rfl
    · simp only [Store.apply, Store.checkOperators, h.operators, hf]
      rfl
  | ok f =>
    cases op with
    | getBuckets => exact hplain.elim
    | importBackup => exact hplain.elim
    | exportBackup => exact hplain.elim
    | getValue b' k p => obtain rfl := Option.some.inj hb; exact .inr (refines_getValue h hf hc)
    | getValues b' ks p => obtain rfl := Option.some.inj hb; exact .inr (refines_getValues h hf hc)
    | getKeys b' => obtain rfl := Option.some.inj hb; exact .inr (refines_getKeys h hc)
    | putValue b' k d p => obtain rfl := Option.some.inj hb; exact .inr (refines_putValue h hf hc)
    | removeValue b' k => obtain rfl := Option.some.inj hb; exact .inr (refines_removeValue h hc)
    | predicateQuery b' p =>
      obtain rfl := Option.some.inj hb; exact .inr (refines_predicateQuery h hf hc)
    | removeBucket b' => obtain rfl := Option.some.inj hb; exact .inr (refines_removeBucket h hc)
    | updateValue b' k u =>
      obtain rfl := Option.some.inj hb
      obtain ⟨g, hg⟩ := Option.isSome_iff_exists.1 hplain
      refine .inr (refines_updateValue (g := g) h ?_ hc)
      simp only [Operators.function, hg]
    | rangeQuery b' range p =>
      obtain rfl := Option.some.inj hb
      cases horder : r.operators.comparator range.comparatorName with
      | error e =>
        refine .inl ⟨e, ?_, ?_⟩
        · simp only [plan, hf, horder]
          rfl
        · simp only [Store.apply, Store.checkOperators, h.operators, hf, horder]
          rfl
      | ok order =>
        obtain ⟨htrans, hlaw⟩ := hplain order horder
        exact .inr (refines_rangeQuery h horder htrans hlaw hf hc)

end Router

end BucketCluster
