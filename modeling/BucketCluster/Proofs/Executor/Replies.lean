import BucketCluster.Proofs.Executor.Conservation
import BucketCluster.Proofs.Executor.Serving

/-!
# Replies are final

A reply that can be read stays as it is (`reply?_of_step`), and by then the job is out
of the executor's hands: no work on it ends any more (`ne_of_reply?_of_work`).  An
executor that has one job to do gets to the reply by its own steps
(`Serving.reaches`).
-/

namespace BucketCluster.Executor

variable {σ J : Type} {run : Handler σ J} {x y : Executor σ J} {e : Event J}
  {w : Option (Ticket J × Outcome)} {n : Nat} {r : Reply}

/-! ## Replies that stay -/

/-- A reply stays if its submission does, and if replies are only added. -/
theorem reply?_keep (hr : x.reply? n = some r)
    (hsub : ∀ s, x.submissions[n]? = some s → s.isEntering = false → y.submissions[n]? = some s)
    {more : List (Nat × Reply)} (hrep : y.replies = x.replies ++ more) : y.reply? n = some r := by
  unfold reply? at hr ⊢
  cases hs : x.submissions[n]? with
  | none => rw [hs] at hr; cases hr
  | some s =>
    rw [hs] at hr
    cases s with
    | entering job => cases hr
    | accepted job =>
      rw [hsub _ hs rfl, hrep]
      exact List.lookup_append.trans (by rw [show x.replies.lookup n = some r from hr]; rfl)
    | rejected job =>
      rw [hsub _ hs rfl]
      exact hr

theorem getElem?_append_of_some {s s' : Submission J} (h : x.submissions[n]? = some s) :
    (x.submissions ++ [s'])[n]? = some s := by
  rw [List.getElem?_append_left (List.getElem?_eq_some_iff.1 h).1]
  exact h

/-- Only a submission on its way changes. -/
theorem getElem?_set_of_entering {m : Nat} {job : J} {s s' : Submission J}
    (hm : x.submissions[m]? = some (.entering job)) (h : x.submissions[n]? = some s)
    (hs : s.isEntering = false) : (x.submissions.set m s')[n]? = some s := by
  have hne : m ≠ n := by
    rintro rfl
    rw [hm] at h
    cases h
    cases hs
  rw [List.getElem?_set_ne hne]
  exact h

theorem reply?_of_transition (h : Transition run x e w y) (hr : x.reply? n = some r) :
    y.reply? n = some r := by
  have hnone : x.replies = x.replies ++ [] := (List.append_nil _).symm
  cases h with
  | counted job hm => exact reply?_keep hr (fun _ hs _ => getElem?_append_of_some hs) hnone
  | turnedAway job hm => exact reply?_keep hr (fun _ hs _ => getElem?_append_of_some hs) hnone
  | pushed m job hs ho => exact reply?_keep hr (fun _ => getElem?_set_of_entering hs) hnone
  | handedBack m job hs ho => exact reply?_keep hr (fun _ => getElem?_set_of_entering hs) hnone
  | answered i t hw => exact reply?_keep hr (fun _ hs _ => hs) rfl
  | replied i t r' hw => exact reply?_keep hr (fun _ hs _ => hs) rfl
  | _ => exact hr

/-- **A reply is final.** -/
theorem reply?_of_step (h : x.step run e = some y) (hr : x.reply? n = some r) :
    y.reply? n = some r :=
  reply?_of_transition (transition_of_step h) hr

/-! ## Jobs that are done -/

/-- No work on a job ends once its reply can be read. -/
theorem ne_of_reply?_of_work {workers : Nat} {store : σ} {log : List (Ticket J × Outcome)}
    (hx : Execution run workers store log x) (h : x.step run e = some y) {t : Ticket J}
    {o : Outcome} (hw : x.work run e = some (t, o)) (hr : x.reply? n = some r) : t.number ≠ n := by
  have htransition := transition_of_step h
  rw [hw] at htransition
  cases htransition with
  | ended i t o s hi hrun =>
    rintro rfl
    have haccepted : x.Accepted t := (hx.invariant.recorded.workers i _ hi).1
    have hmem := (reply?_eq_some_iff hx.invariant.staged haccepted.isAccepted r).1 hr
    have hnone := (hx.invariant.staged.alone (n := t.number) hi (.inr rfl)).2.1
    exact ne_of_timesReplied hnone hmem rfl

/-! ## Getting to the reply -/

/-- By its own steps, the executor gets to the reply and is quiet then. -/
theorem Serving.reaches {t : Ticket J} {s s' : σ} {o : Outcome} (hrun : run t.job s = some (o, s'))
    (h : Serving t s s' o.reply x) :
    ∃ es y, x.after run es = some y ∧ y.reply? t.number = some o.reply ∧ Quiet s' y := by
  induction hk : x.remaining using Nat.strongRecOn generalizing x with
  | ind k ih =>
    rcases h.progress hrun with ⟨e, he, hstep⟩ | hreply
    · obtain ⟨z, hz⟩ := Option.isSome_iff_exists.1 hstep
      have hlt := remaining_lt hz he h.undisturbed
      obtain ⟨es, y, hes, hy⟩ := ih z.remaining (hk ▸ hlt) (serving_step hz he hrun h) rfl
      exact ⟨e :: es, y, by rw [after, hz]; exact hes, hy⟩
    · exact ⟨[], x, rfl, hreply, (h.of_reply hreply).2⟩

end BucketCluster.Executor
