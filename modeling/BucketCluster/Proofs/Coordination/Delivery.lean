import BucketCluster.Coordination.Plan
import BucketCluster.Proofs.Message
import BucketCluster.Store.Apply
import Mathlib.Data.List.Nodup

/-!
# Plans that deliver

A plan is faithful if it can be carried out, each part at its node, and if the
replies come to one and the same answer in whatever order they come.  Two kinds of
plan are: one for a single node that answers for the whole (`direct_faithful`), and
one for several nodes that only read (`gather_faithful`).
-/

namespace BucketCluster

/-! ## Carrying out a plan -/

/-- What the node of a send replies. -/
def Plan.replyTo (stores : String → Store) (send : Node × Command) : Reply :=
  ((stores send.1.name).handle send.2).1

/-- The store of a node after a plan has been carried out. -/
def Plan.after (p : Plan) (stores : String → Store) (n : String) : Store :=
  match p.sends.find? (·.1.name == n) with
  | some send => ((stores n).handle send.2).2
  | none => stores n

/-- The replies come to the answer, in whatever order they come. -/
inductive Plan.Delivers (p : Plan) (stores : String → Store)
    (answer : Except ClusterError Answer) : Prop where
  | merged (part : Node × Command → Answer)
      (hpart : ∀ send ∈ p.sends, replyTo stores send = .ok (part send))
      (hmerge : ∀ sends : List (Node × Command), sends.Perm p.sends →
        (p.merge.answer (sends.map part)).mapError .processing = answer)
  /-- The only send decides. -/
  | failed (send : Node × Command) (e : ProcessingError) (hsends : p.sends = [send])
      (hreply : replyTo stores send = .error e) (hanswer : answer = .error (.processing e))

/-- The plan can be carried out, and comes to the answer. -/
structure Plan.Faithful (p : Plan) (names : List String) (stores : String → Store)
    (answer : Except ClusterError Answer) : Prop where
  distinct : (p.sends.map (·.1.name)).Nodup
  known : ∀ send ∈ p.sends, send.1.name ∈ names
  command_fits : ∀ send ∈ p.sends, Command.schema.Fits send.2
  reply_fits : ∀ send ∈ p.sends, Reply.schema.Fits (replyTo stores send)
  delivers : p.Delivers stores answer

variable {stores : String → Store} {whole : Store} {names : List String} {p : Plan}
  {answer : Except ClusterError Answer}

/-- The store of a node to which the plan sends something. -/
theorem Plan.Faithful.after_of_mem (hp : p.Faithful names stores answer) {send : Node × Command}
    (hs : send ∈ p.sends) :
    p.after stores send.1.name = ((stores send.1.name).handle send.2).2 := by
  unfold Plan.after
  cases hfind : p.sends.find? (·.1.name == send.1.name) with
  | none => exact absurd (beq_self_eq_true _) (List.find?_eq_none.1 hfind send hs)
  | some send' =>
    have hname : send'.1.name = send.1.name := by simpa using List.find?_some hfind
    have heq : send' = send :=
      List.inj_on_of_nodup_map hp.distinct (List.mem_of_find?_eq_some hfind) hs hname
    rw [heq]

/-- The store of any other node. -/
theorem Plan.after_of_not_mem {name : String} (hname : ∀ send ∈ p.sends, send.1.name ≠ name) :
    p.after stores name = stores name := by
  unfold Plan.after
  rw [List.find?_eq_none.2 fun send hs => by simpa using hname send hs]

/-! ## Commands on buckets -/

/-- The bucket that an operation is about. -/
def Operation.bucket? : Operation → Option String
  | getBuckets => none
  | getValue b .. => some b
  | getValues b .. => some b
  | getKeys b => some b
  | putValue b .. => some b
  | removeValue b _ => some b
  | updateValue b .. => some b
  | rangeQuery b .. => some b
  | predicateQuery b _ => some b
  | removeBucket b => some b
  | importBackup b _ => some b
  | exportBackup b _ => some b

/-- No operator crashes on the store, and what is said about it is no longer than what a machine
holds. -/
structure Command.Calm (c : Command) (s : Store) : Prop where
  calm : s.crashes c.operation = false
  command_fits : Command.schema.Fits c
  reply_fits : Reply.schema.Fits ((s.apply c).1.mapError .store)
  contents_fit : ∀ b, c.operation.bucket? = some b →
    Reply.schema.Fits (.ok (.values (s.contents b)))

theorem Store.handle_of_calm {s : Store} {c : Command} (h : s.crashes c.operation = false) :
    s.handle c = ((s.apply c).1.mapError .store, (s.apply c).2) := by
  simp only [handle, h]
  rfl

/-! ## One node -/

/-- The holder of a key answers for the whole. -/
theorem direct_faithful {m : Node} {c : Command} (hm : m.name ∈ names) (hc : c.Calm whole)
    (hcalm : (stores m.name).crashes c.operation = false)
    (happly : ((stores m.name).apply c).1 = (whole.apply c).1) :
    (Plan.direct m c).Faithful names stores ((whole.apply c).1.mapError .ofStore) := by
  have hreply : Plan.replyTo stores (m, c) = (whole.apply c).1.mapError .store := by
    rw [Plan.replyTo, Store.handle_of_calm hcalm, happly]
  have hsends : (Plan.direct m c).sends = [(m, c)] := rfl
  refine ⟨List.pairwise_singleton _ _, ?_, ?_, ?_, ?_⟩
  · intro send hs
    rw [hsends, List.mem_singleton] at hs
    rw [hs]
    exact hm
  · intro send hs
    rw [hsends, List.mem_singleton] at hs
    rw [hs]
    exact hc.command_fits
  · intro send hs
    rw [hsends, List.mem_singleton] at hs
    rw [hs, hreply]
    exact hc.reply_fits
  · cases ha : (whole.apply c).1 with
    | error e => exact .failed (m, c) (.store e) hsends (by rw [hreply, ha]; rfl) rfl
    | ok a =>
      refine .merged (fun _ => a) ?_ ?_
      · intro send hs
        rw [hsends, List.mem_singleton] at hs
        rw [hs, hreply, ha]
        rfl
      · intro sends hs
        rw [hsends, List.perm_singleton] at hs
        rw [hs]
        rfl

theorem direct_after (m : Node) (c : Command) (stores : String → Store)
    (hcalm : (stores m.name).crashes c.operation = false) :
    (Plan.direct m c).after stores =
      fun n => if n = m.name then ((stores m.name).apply c).2 else stores n := by
  funext n
  have hsends : (Plan.direct m c).sends = [(m, c)] := rfl
  rw [Plan.after, hsends, List.find?_singleton]
  by_cases hn : n = m.name
  · subst hn
    rw [if_pos (beq_self_eq_true _), if_pos rfl]
    simp only [Store.handle_of_calm hcalm]
  · rw [if_neg (by simpa using fun h => hn h.symm), if_neg hn]

/-! ## Several nodes that read -/

theorem gather_faithful (part : Node × Command → Answer)
    (hdistinct : (p.sends.map (·.1.name)).Nodup) (hknown : ∀ send ∈ p.sends, send.1.name ∈ names)
    (hfits : ∀ send ∈ p.sends, Command.schema.Fits send.2)
    (hcalm : ∀ send ∈ p.sends, (stores send.1.name).crashes send.2.operation = false)
    (happly : ∀ send ∈ p.sends, ((stores send.1.name).apply send.2).1 = .ok (part send))
    (hreply : ∀ send ∈ p.sends, Reply.schema.Fits (.ok (part send)))
    (hmerge : ∀ sends : List (Node × Command), sends.Perm p.sends →
      (p.merge.answer (sends.map part)).mapError .processing = answer) :
    p.Faithful names stores answer := by
  have hok : ∀ send ∈ p.sends, Plan.replyTo stores send = .ok (part send) := by
    intro send hs
    rw [Plan.replyTo, Store.handle_of_calm (hcalm send hs), happly send hs]
    rfl
  refine ⟨hdistinct, hknown, hfits, ?_, .merged part hok hmerge⟩
  intro send hs
  rw [hok send hs]
  exact hreply send hs

/-- Nodes that only read stay as they are. -/
theorem after_of_reads
    (hcalm : ∀ send ∈ p.sends, (stores send.1.name).crashes send.2.operation = false)
    (hread : ∀ send ∈ p.sends, ((stores send.1.name).apply send.2).2 = stores send.1.name) :
    p.after stores = stores := by
  funext n
  unfold Plan.after
  cases hs : p.sends.find? (·.1.name == n) with
  | none => rfl
  | some send =>
    have hmem := List.mem_of_find?_eq_some hs
    have hname : send.1.name = n := by simpa using List.find?_some hs
    subst hname
    simp only [Store.handle_of_calm (hcalm send hmem), hread send hmem]

end BucketCluster
