import JobCluster.Proofs.Cluster.Undoing
/-!
# What outlasts a transaction

Work in a transaction of its own is more than the work: the transaction begins, on a thread whose
timeout is changed for the time, and comes to an end with all its callbacks. What none of this
touches is as the work has left it.

Main results:

- `Cluster.Lasts.commit`, `Cluster.Lasts.abandon`: what lasts to the end of a transaction;
- `Cluster.Lasts.runInTransaction_of`: what holds when the work is done, or given up, lasts;
- `Cluster.Lasts.runInTransaction`: what the work and the callbacks keep, the whole keeps.
-/

namespace JobCluster.Cluster

variable {η ω : Type}

/-- Whether the callbacks of transactions keep a property of a cluster, and nothing else bears on it
that a transaction does when it begins and when it comes to an end. -/
structure Lasts (app : Application η ω) (P : Cluster η ω → Prop) : Prop where
  resource : ∀ c resource, P c → P { c with resource }
  transactions : ∀ c transactions, P c → P { c with transactions }
  nextTx : ∀ c nextTx, P c → P { c with nextTx }
  manager : ∀ c n f, P c → P (c.modifyManager n f)
  callback : ∀ c thread callback phase, P c → P (runCallback app thread callback phase c).2

namespace Lasts

variable {app : Application η ω} {P : Cluster η ω → Prop} {c : Cluster η ω} {thread : Thread}

/-- Whatever lasts over callbacks lasts over the end of a transaction. -/
theorem keeps (h : Lasts app P) (thread : Thread) : (surroundings app thread).Keeps P where
  run callback phase c := h.callback c thread callback phase
  commitResource _ c := h.resource c _
  rollbackResource _ c := h.resource c _
  leave t c := h.manager c t.node _

theorem abandon (h : Lasts app P) (thread : Thread) (tx : TxId) (hc : P c) :
    P (c.abandon app thread tx) := by
  unfold Cluster.abandon Cluster.rollback conclude
  cases c.transaction? tx with
  | none => exact hc
  | some t => exact (h.keeps thread).rollback t (h.transactions c _ hc)

theorem commit (h : Lasts app P) (thread : Thread) (tx : TxId) (hc : P c) :
    P (c.commit app thread tx).2 := by
  unfold Cluster.commit conclude
  cases c.transaction? tx with
  | none => exact hc
  | some t => exact (h.keeps thread).commit t (h.transactions c _ hc)

theorem opening (h : Lasts app P) (n : NodeName) (thread : Thread) (timeout : Option Time)
    (hc : P c) : P (c.opening n thread timeout).2 := by
  have hmanager := h.manager c n (fun m => m.overrideTimeout thread timeout) hc
  unfold Cluster.opening begin
  generalize c.modifyManager n (fun m => m.overrideTimeout thread timeout) = d at hmanager
  have hnumber : P { d with nextTx := d.nextTx + 1 } := h.nextTx d _ hmanager
  dsimp only
  split
  · exact hnumber
  · split
    · exact h.resource { d with nextTx := d.nextTx + 1 } _ hnumber
    · next resource _ =>
      have hresource := h.resource { d with nextTx := d.nextTx + 1 } resource hnumber
      have hopen := fun transactions =>
        h.transactions { d with nextTx := d.nextTx + 1, resource } transactions hresource
      dsimp only
      exact h.manager _ n _ (hopen _)

/-- What holds when the work is done, or when work that has not succeeded is given up, lasts to the
end of the transaction. -/
theorem runInTransaction_of {ε α : Type} (h : Lasts app P) (n : NodeName) (timeout : Option Time)
    {body : TxId → Act η ω (Except ε α)}
    (hbody : ∀ tx d, c.opening n thread timeout = (.ok tx, d) → P d →
      P (body tx d).2 ∨ (∀ a, (body tx d).1 ≠ .ok (.ok a)) ∧ P ((body tx d).2.abandon app thread tx))
    (hc : P c) : P (Cluster.runInTransaction app n thread timeout body c).2 := by
  have hopening := h.opening n thread timeout hc
  have hrestore : ∀ d, P d →
      P (d.modifyManager n fun m => m.setTimeout thread ((c.node n).manager.override? thread)) :=
    fun d => h.manager d n _
  simp only [Cluster.runInTransaction_eq]
  rcases hbegin : c.opening n thread timeout with ⟨e | tx, d⟩ <;> rw [hbegin] at hopening
  · exact hrestore d hopening
  · have hwork := hbody tx d hbegin hopening
    have hgiven : P (body tx d).2 ∨ P ((body tx d).2.abandon app thread tx) :=
      hwork.imp_right And.right
    simp only
    rcases hanswer : body tx d with ⟨p | (e | a), d'⟩ <;> rw [hanswer] at hwork hgiven
    · exact hrestore _ (hgiven.elim (h.abandon thread tx) id)
    · exact hrestore _ (hgiven.elim (h.abandon thread tx) id)
    · have hdone : P d' := hwork.resolve_right fun hfailed => hfailed.1 a rfl
      have hcommit := h.commit thread tx hdone
      simp only
      rcases hend : d'.commit app thread tx with ⟨e | _, e'⟩ <;> rw [hend] at hcommit <;>
        exact hrestore e' hcommit

/-- What the work keeps lasts, however the transaction ends. -/
theorem runInTransaction {ε α : Type} (h : Lasts app P) (n : NodeName) (timeout : Option Time)
    {body : TxId → Act η ω (Except ε α)} (hbody : ∀ tx d, P d → P (body tx d).2) (hc : P c) :
    P (Cluster.runInTransaction app n thread timeout body c).2 :=
  h.runInTransaction_of n timeout (fun tx d _ hd => .inl (hbody tx d hd)) hc

end Lasts

end JobCluster.Cluster
