import JobCluster.Proofs.Cluster.Ownership
import JobCluster.Proofs.Instance.Ending
/-!
# Routes and the instances that own them

A route is added apart from all transactions, for an instance that may be no more than a draft, and
is taken out when the node hears that the instance has come to its end. So a route has backing as
long as its owner is committed and has not come to its end, or a transaction that may still commit
has written the owner as such. A commit either keeps the backing or is heard of. A rollback is not
heard of: if it takes the last backing away, the route is left over.

Main results:

- `InstanceStore.ends_or_unfinished`: what writes make of an instance that has not come to its end;
- `Interplay.mayCommit_of_step`, `Interplay.MayCommit.step`: which transactions may still commit;
- `Interplay.backed_step_iff`: a move leaves all routes with backing unless it is such a rollback;
- `Interplay.backed_iff`: the routes of a node in every state of a history.
-/

namespace JobCluster

variable {η ω : Type}

/-! ## Instances that have not come to their ends -/

namespace InstanceStore

variable {id : InstanceId} {base : Option ProcessInstance} {ws : List InstanceWrite}

/-- Whether there is an instance that has not come to its end. -/
def Unfinished (p : Option ProcessInstance) : Prop := ∃ q, p = some q ∧ q.isFinished = false

/-- Whether one of some writes leaves an instance that has not come to its end. -/
def Upholds (id : InstanceId) (ws : List InstanceWrite) : Prop :=
  ∃ w ∈ ws, w.id = id ∧ Unfinished w.result

/-- Every write ends an instance, or leaves it unfinished. -/
theorem ends_or_unfinished_write (hbase : Unfinished base) (w : InstanceWrite) :
    w.ends base = true ∨ Unfinished w.result := by
  obtain ⟨q, rfl, hq⟩ := hbase
  cases w with
  | delete id => exact .inl rfl
  | put p =>
      cases hp : p.isFinished with
      | true => exact .inl (by simp [InstanceWrite.ends, hp, hq])
      | false => exact .inr ⟨p, rfl, hp⟩

/-- An instance that has not come to its end is brought to it by some writes, or has not come to it
after them. -/
theorem ends_or_unfinished (hbase : Unfinished base) (ws : List InstanceWrite) :
    Ends id base ws ∨ Unfinished (seen id base ws) := by
  induction ws generalizing base with
  | nil => exact .inr hbase
  | cons w rest ih =>
      rw [ends_cons, seen_cons]
      by_cases hid : w.id = id
      · simp only [if_pos hid]
        rcases ends_or_unfinished_write hbase w with hends | hresult
        · exact .inl (.inl ⟨hid, hends⟩)
        · exact (ih hresult).imp_left .inr
      · simp only [if_neg hid]
        exact (ih hbase).imp_left .inr

/-- Once some writes have left an instance before its end, they bring it there or leave it so. -/
theorem ends_or_unfinished_of_upholds (h : Upholds id ws) (base : Option ProcessInstance) :
    Ends id base ws ∨ Unfinished (seen id base ws) := by
  obtain ⟨w, hw, hid, hresult⟩ := h
  induction ws generalizing base with
  | nil => cases hw
  | cons v rest ih =>
      rw [ends_cons, seen_cons]
      rcases List.mem_cons.mp hw with rfl | hrest
      · simp only [if_pos hid]
        exact (ends_or_unfinished hresult rest).imp_left .inr
      · exact (ih _ hrest).imp_left .inr

/-- An instance that a transaction sees before its end is committed so, or the transaction has
written it so. -/
theorem upholds_of_view {s : InstanceStore} {tx : TxId} (h : Unfinished (s.view tx id)) :
    Unfinished (s.get? id) ∨ Upholds id (s.writes tx) := by
  unfold view at h
  split at h
  · next w hfind =>
    refine .inr ⟨w, ?_, by simpa using List.find?_some hfind, h⟩
    exact List.mem_reverse.mp (List.mem_of_find?_eq_some hfind)
  · exact .inl h

end InstanceStore

/-! ## What becomes of routes -/

namespace Registry

variable {r s : Registry}

/-- No step of a conversation touches a route. -/
theorem Converses.routes (h : r.Converses s) : s.routes = r.routes := by
  induction h with
  | refl => rfl
  | set _ _ _ ih => exact ih

end Registry

/-- Apart from transactions, routes are set, or taken out when an instance is cleared up after. -/
theorem RegistryChange.routes_apply (r : Registry) (a : RegistryChange) :
    (a.apply r).routes =
      match a with
      | .setRoutes routes => routes
      | .cleanUp id => r.routes.release id
      | _ => r.routes := by
  cases a with
  | advance id target => exact (r.converses_advance id target).routes
  | complete id status => exact (r.converses_complete id status).routes
  | fail id failure explanation => exact (r.converses_fail id failure explanation).routes
  | bind catalog id key => exact (r.converses_bind catalog id key).routes
  | amend slot amendment => rfl
  | release id => exact (r.sheds_release id).routes
  | releaseInstance id => exact (r.sheds_releaseInstance id).routes
  | cleanUp id => exact (r.sheds_cleanUp id).routes
  | sweep now => exact r.routes_sweep now
  | forceSweep now => exact (r.sheds_forceSweep now).routes
  | setRoutes routes => rfl

namespace Cluster

variable {c : Cluster η ω} {n : NodeName} {key : RouteKey} {route : ResourceRoute}

/-- A change of the registry of a node leaves the routes of the others as they are. -/
theorem routes_modifyRegistry (c : Cluster η ω) (n m : NodeName) (f : Registry → Registry) :
    (c.modifyRegistry m f).routes n =
      if m = n then (f (c.node m).registry).routes else c.routes n := by
  rw [routes, registry_modifyRegistry]
  split <;> rfl

/-- Callbacks take routes out, and add none. -/
theorem get?_routes_carryOut {app : Application η ω} {thread : Thread} {phase : Phase}
    {callback : Callback η}
    (h : ((c.carryOut app thread phase callback).routes n).get? key = some route) :
    (c.routes n).get? key = some route := by
  revert h
  refine carryOut_registry (P := fun r => r.routes.get? key = some route →
    (c.routes n).get? key = some route) (fun r id hr => ?_) (fun r id hr => ?_) app
    thread phase c callback n id
  · rw [(r.sheds_rollBack id).routes]
    exact hr
  · rw [(r.sheds_cleanUp id).routes, Routes.get?_release]
    exact fun hroute => hr (Option.filter_eq_some_iff.mp hroute).1

end Cluster

/-- A registry has no routes after a change but those that it had before, or was given. -/
theorem RegistryChange.get?_routes_apply {r : Registry} {a : RegistryChange} {key : RouteKey}
    {route : ResourceRoute} (h : (a.apply r).routes.get? key = some route) :
    r.routes.get? key = some route ∨
      ∃ routes, a = .setRoutes routes ∧ routes.get? key = some route := by
  rw [routes_apply] at h
  split at h
  · next routes => exact .inr ⟨routes, rfl, h⟩
  · rw [Routes.get?_release] at h
    exact .inl (Option.filter_eq_some_iff.mp h).1
  · exact .inl h

namespace Interplay

variable {app : Application η ω} {o : Interplay η ω} {m : Move η ω} {tx : TxId} {n : NodeName}

/-- A node has no routes after a move but those that it had before, or was given. -/
theorem get?_routes_step {key : RouteKey} {route : ResourceRoute}
    (h : ((o.step app m).cluster.routes n).get? key = some route) :
    (o.cluster.routes n).get? key = some route ∨
      ∃ routes, m = .registry n (.setRoutes routes) ∧ routes.get? key = some route := by
  have hsame : ∀ {c : Cluster η ω}, (c.node n).registry = (o.cluster.node n).registry →
      (c.routes n).get? key = some route → (o.cluster.routes n).get? key = some route := by
    intro c hc
    rw [Cluster.routes, hc]
    exact fun hroute => hroute
  have houtcome := outcome_step app o m
  generalize o.step app m = p at houtcome h
  cases houtcome with
  | idle | refused | store => exact .inl h
  | @begun m thread tx c hbegin =>
      have hregistry := o.cluster.registry_begin m n thread
      rw [hbegin] at hregistry
      exact .inl (hsame hregistry h)
  | @worked tx a t ht =>
      rcases (a.effect_perform tx o.cluster).registry n with
        hregistry | ⟨id, _, slot, _, _, hcreate⟩
      · exact .inl (hsame hregistry h)
      · refine .inl ?_
        rw [← show _ = o.cluster.routes n from Registry.routes_create hcreate]
        exact h
  | departed thread request ht hround hc => exact .inl (hsame (hc.registry n) h)
  | before i hd hround => exact .inl (Cluster.get?_routes_carryOut h)
  | decided i committed hd hround hc => exact .inl (hsame (hc.registry n) h)
  | after i hd hround => exact .inl (Cluster.get?_routes_carryOut h)
  | registry m a =>
      simp only [Cluster.routes_modifyRegistry] at h
      split at h
      · next hmn =>
        subst hmn
        refine (RegistryChange.get?_routes_apply h).imp_right ?_
        rintro ⟨routes, rfl, hroute⟩
        exact ⟨routes, rfl, hroute⟩
      · exact .inl h
  | elsewhere what => exact .inl (hsame (what.registry o.cluster n) h)

/-! ## Transactions that may still commit -/

/-- The transaction whose rollback a move brings about: its end is called for and it cannot commit,
or the resource manager refuses to commit it. -/
def rollsBack? (o : Interplay η ω) : Move η ω → Option TxId
  | .depart tx thread request => o.decides? (.depart tx thread request)
  | .advance i => if o.cluster.resource.refusesCommit then o.decides? (.advance i) else none
  | .begin _ _ | .work _ _ | .store _ | .registry _ _ | .elsewhere _ => none

end Interplay

/-- Whether the writes of a transaction on its way out may still be committed. -/
def Departure.mayCommit (d : Departure η) : Bool :=
  match d.round with
  | .preparing _ => true
  | .concluding committed rest => committed && rest.any Callback.applies

/-- A departure whose writes may be committed has them still to apply. -/
theorem Departure.willApply_of_mayCommit {d : Departure η} (h : d.mayCommit = true) :
    d.willApply = true := by
  unfold mayCommit at h
  unfold willApply
  cases hround : d.round with
  | preparing rest => rfl
  | concluding committed rest =>
      rw [hround] at h
      exact (Bool.and_eq_true_iff.mp h).2

namespace Interplay

variable {app : Application η ω} {o : Interplay η ω} {m : Move η ω} {tx : TxId} {n : NodeName}

/-- Whether the writes of a transaction may still be committed. -/
def MayCommit (o : Interplay η ω) (tx : TxId) : Prop :=
  o.InPlay tx (fun _ => True) fun d => d.mayCommit = true

/-- A transaction whose writes may be committed is not settled yet. -/
theorem MayCommit.unsettled (h : o.MayCommit tx) : o.IsUnsettled tx := by
  rcases h with ⟨t, ht, _⟩ | ⟨d, hd, hdtx, hmay⟩
  · exact .inl ⟨t, ht⟩
  · exact .inr ⟨d, hd, hdtx, Departure.willApply_of_mayCommit hmay⟩

/-- Whether the writes of a departing transaction may be committed is told by its departure. -/
theorem mayCommit_of_departure (ho : Orderly o) {d : Departure η} (hd : d ∈ o.departures) :
    o.MayCommit d.tx ↔ d.mayCommit = true :=
  ho.inPlay_of_departure hd

/-- The writes of a transaction that departs may be committed if it reaches its commit; nothing
changes for the others. -/
theorem mayCommit_depart (ho : Orderly o) {own : TxId} {t : Transaction (Callback η)}
    (ht : o.cluster.transaction? own = some t) (thread : Thread) (request : Transaction.Request)
    (tx : TxId) :
    (o.step app (.depart own thread request)).MayCommit tx ↔
      if tx = own then t.reachesCommit request = true else o.MayCommit tx := by
  simp only [step, ht]
  rw [MayCommit, ho.inPlay_depart ht (Departure.transactions_first ..) rfl]
  cases hreaches : t.reachesCommit request with
  | false =>
      rw [(Departure.settles_first app thread own o.cluster hreaches).2.2]
      rfl
  | true => simp [Departure.first, hreaches, Departure.mayCommit, MayCommit]

/-- The writes of a departing transaction may be committed as its next step says; nothing changes
for the others. -/
theorem mayCommit_advance (ho : Orderly o) {i : Nat} {d : Departure η}
    (hd : o.departures[i]? = some d) (tx : TxId) :
    (o.step app (.advance i)).MayCommit tx ↔
      if tx = d.tx then (d.moveTo (d.next app o.cluster).1).mayCommit = true
      else o.MayCommit tx := by
  simp only [step, hd]
  rw [MayCommit, ho.inPlay_moveTo hd (Departure.transactions_next app d o.cluster)]
  rfl

/-- A departure whose writes may be committed after a step could have them committed before. -/
theorem mayCommit_of_next (app : Application η ω) (c : Cluster η ω) {d : Departure η}
    (h : (d.moveTo (d.next app c).1).mayCommit = true) : d.mayCommit = true := by
  unfold Departure.mayCommit at h ⊢
  cases hround : d.round with
  | preparing rest => rfl
  | concluding committed rest =>
      cases rest with
      | nil => simp [Departure.next, hround] at h
      | cons callback rest =>
          simp only [Departure.next, hround, Departure.round_moveTo, Bool.and_eq_true] at h
          simp [h.1, h.2]

/-- A transaction that may commit after a move is not rolled back by the move. -/
theorem rollsBack?_ne_of_mayCommit (ho : Orderly o) (h : (o.step app m).MayCommit tx) :
    o.rollsBack? m ≠ some tx := by
  cases m with
  | depart own thread request =>
      cases ht : o.cluster.transaction? own with
      | none => simp [rollsBack?, decides?, ht]
      | some t =>
          rw [mayCommit_depart ho ht] at h
          split at h
          · simp [rollsBack?, decides?, ht, h]
          · next htx =>
            cases hreaches : t.reachesCommit request <;>
              simp [rollsBack?, decides?, ht, hreaches, Ne.symm htx]
  | advance i =>
      cases hd : o.departures[i]? with
      | none => simp [rollsBack?, decides?, hd]
      | some d =>
          rw [mayCommit_advance ho hd] at h
          cases hround : d.round with
          | preparing rest =>
              cases rest with
              | nil =>
                  rw [(Departure.settles_next app o.cluster hround).2.2] at h
                  simp only [Departure.mayCommit, Departure.round_moveTo, Bool.and_eq_true] at h
                  simp only [rollsBack?, decides?, hd, Option.bind_some, hround]
                  split
                  · next hrefuses =>
                    intro heq
                    obtain rfl := Option.some.inj heq
                    simp [hrefuses] at h
                  · simp
              | cons callback rest => simp [rollsBack?, decides?, hd, hround]
          | concluding committed rest => simp [rollsBack?, decides?, hd, hround]
  | begin n thread | work own a | store a | registry n a | elsewhere what => simp [rollsBack?]

/-- A transaction that may commit after a move might have done so before, unless it begins, and is
not rolled back by the move. -/
theorem mayCommit_of_step (ho : Orderly o) (h : (o.step app m).MayCommit tx) :
    (o.MayCommit tx ∨ o.begins? m = some tx) ∧ o.rollsBack? m ≠ some tx :=
  ⟨inPlay_of_step ho (fun _ => mayCommit_of_next app o.cluster) h, rollsBack?_ne_of_mayCommit ho h⟩

/-- A departing transaction that has written anything may still commit after its next step, unless
it does so in this step or is rolled back. -/
theorem mayCommit_next (ho : Orderly o) (hpledged : Pledged o) {i : Nat} {d : Departure η}
    (hd : o.departures[i]? = some d) (hmay : d.mayCommit = true) (hwrites : o.writes d.tx ≠ [])
    (hrolls : o.rollsBack? (.advance i) ≠ some d.tx)
    (hcommits : o.commits? (.advance i) ≠ some d.tx) :
    (d.moveTo (d.next app o.cluster).1).mayCommit = true := by
  have hin := List.mem_of_getElem? hd
  cases hround : d.round with
  | preparing rest =>
      cases rest with
      | nil =>
          have hany := (hpledged.any_applies (ho.departed d hin) true).mpr hwrites
          rw [(Departure.settles_next app o.cluster hround).2.2]
          cases hrefuses : o.cluster.resource.refusesCommit with
          | true => exact absurd (by simp [rollsBack?, decides?, hd, hround, hrefuses]) hrolls
          | false => simpa [Departure.mayCommit] using hany
      | cons callback rest => simp [Departure.next, hround, Departure.mayCommit]
  | concluding committed rest =>
      simp only [Departure.mayCommit, hround, Bool.and_eq_true] at hmay
      obtain ⟨rfl, hany⟩ := hmay
      cases rest with
      | nil => cases hany
      | cons callback rest =>
          rw [List.any_cons, Bool.or_eq_true] at hany
          simp only [Departure.next, hround, Departure.mayCommit, Departure.round_moveTo,
            Bool.true_and]
          -- The callback that applies the writes is the commit itself.
          refine hany.resolve_left fun happlies => hcommits ?_
          obtain ⟨own, rfl⟩ := Callback.applies_eq_true.mp happlies
          obtain rfl := ho.applyWrites_own hin (ho.mem_after hin hround)
          exact commits?_eq_some.mpr ⟨i, d, rest, rfl, hd, hround⟩

/-- A transaction that has written anything may commit until it does so or is rolled back. -/
theorem MayCommit.step (h : o.MayCommit tx) (ho : Orderly o) (hpledged : Pledged o)
    (hwrites : o.writes tx ≠ []) (hrolls : o.rollsBack? m ≠ some tx)
    (hcommits : o.commits? m ≠ some tx) : (o.step app m).MayCommit tx := by
  cases m with
  | depart own thread request =>
      cases ht : o.cluster.transaction? own with
      | none => simpa only [Interplay.step, ht] using h
      | some t =>
          rw [mayCommit_depart ho ht]
          split
          · next htx =>
            subst htx
            cases hreaches : t.reachesCommit request with
            | true => rfl
            | false => exact absurd (by simp [rollsBack?, decides?, ht, hreaches]) hrolls
          · exact h
  | advance i =>
      cases hd : o.departures[i]? with
      | none => simpa only [Interplay.step, hd] using h
      | some d =>
          rw [mayCommit_advance ho hd]
          split
          · next htx =>
            subst htx
            have hmay := (mayCommit_of_departure ho (List.mem_of_getElem? hd)).mp h
            exact mayCommit_next ho hpledged hd hmay hwrites hrolls hcommits
          · exact h
  | begin n thread | work own a | store a | registry n a | elsewhere what =>
      exact (inPlay_step_of_kept app (by simp) (by simp) tx).mpr (.inl h)

/-- A transaction whose writes are forgotten may not commit. -/
theorem not_mayCommit_of_forgets (ho : Orderly o)
    (h : o.event? m = some (.complete tx false)) : ¬ o.MayCommit tx := by
  cases m with
  | advance i =>
      simp only [event?] at h
      split at h
      · next d phase own hcarries =>
        simp only [Option.some.injEq, StoreEvent.complete.injEq] at h
        obtain ⟨rfl, hfollows⟩ := h
        cases phase with
        | before =>
            obtain ⟨j, _, hd, hupcoming⟩ := carries?_eq_some.mp hcarries
            have hin := List.mem_of_getElem? hd
            unfold Departure.upcoming? at hupcoming
            split at hupcoming
            · next hround =>
              cases hupcoming
              cases ho.applies_eq_false hin (ho.mem_before hin hround)
            · cases hupcoming
            · cases hupcoming
            · cases hupcoming
        | after committed =>
            obtain rfl : committed = false := hfollows
            obtain ⟨j, rest, _, hd, hround⟩ := carries?_after_eq_some.mp hcarries
            have hin := List.mem_of_getElem? hd
            rw [ho.applyWrites_own hin (ho.mem_after hin hround), mayCommit_of_departure ho hin]
            simp [Departure.mayCommit, hround]
      · cases h
  | work own a => simp [event?] at h
  | begin | depart | store | registry | elsewhere => cases h

/-- A move that brings a rollback about runs no callback. -/
theorem carries?_of_rollsBack (h : o.rollsBack? m = some tx) : o.carries? m = none := by
  cases m with
  | advance i =>
      have hdecides : o.decides? (.advance i) = some tx := by
        simp only [rollsBack?] at h
        split at h
        · exact h
        · cases h
      obtain ⟨d, hd, hround⟩ := Option.bind_eq_some_iff.mp hdecides
      split at hround
      · next hprepared => simp [carries?, hd, Departure.upcoming?, hprepared]
      · cases hround
      · cases hround
  | depart | begin | work | store | registry | elsewhere => rfl

/-- A move that brings a rollback about changes nothing that transactions work on, and brings
nothing to the instance store. -/
theorem unmoved_of_rollsBack (app : Application η ω) (h : o.rollsBack? m = some tx) :
    o.cluster.Unmoved (o.step app m).cluster ∧ o.commits? m = none ∧ o.begins? m = none := by
  have hcarries := carries?_of_rollsBack h
  have hcommits : o.commits? m = none := by simp [commits?, hcarries]
  have houtcome := outcome_step app o m
  cases m with
  | depart own thread request =>
      refine ⟨?_, hcommits, rfl⟩
      generalize o.step app (.depart own thread request) = p at houtcome
      cases houtcome with
      | idle => exact .refl _
      | departed _ _ _ _ hc => exact hc
  | advance i =>
      refine ⟨?_, hcommits, rfl⟩
      generalize o.step app (.advance i) = p at houtcome
      cases houtcome with
      | idle => exact .refl _
      | decided _ _ _ _ hc => exact hc
      | before _ hd hround => simp [carries?, hd, Departure.upcoming?, hround] at hcarries
      | after _ hd hround => simp [carries?, hd, Departure.upcoming?, hround] at hcarries
  | begin | work | store | registry | elsewhere => cases h

/-- A transaction that may commit keeps what it has written until it does so. -/
theorem MayCommit.mem_writes_step (h : o.MayCommit tx) (ho : Orderly o)
    (hcommits : o.commits? m ≠ some tx) {w : InstanceWrite}
    (hw : w ∈ o.cluster.instances.writes tx) :
    w ∈ (o.step app m).cluster.instances.writes tx := by
  rw [instances_step app o m]
  cases hevent : o.event? m with
  | none => exact hw
  | some event =>
      simp only [Option.toList_some, List.foldl_cons, List.foldl_nil]
      cases event with
      | call own a =>
          simp only [StoreEvent.apply]
          split
          · rw [InstanceStore.writes_stage]
            split
            · next hown => exact List.mem_append_left _ (hown ▸ hw)
            · exact hw
          · exact hw
      | complete own committed =>
          simp only [StoreEvent.apply]
          rw [InstanceStore.writes_complete]
          split
          · next hown =>
            subst hown
            cases committed with
            | true => exact absurd (event?_eq_commit.mp hevent) hcommits
            | false => exact absurd h (not_mayCommit_of_forgets ho hevent)
          · exact hw

/-! ## Backing -/

/-- Whether an instance is committed and has not come to its end, or a transaction that may still
commit has written it so. -/
def HasBacking (o : Interplay η ω) (id : InstanceId) : Prop :=
  InstanceStore.Unfinished (o.instance? id) ∨
    ∃ tx, o.MayCommit tx ∧ InstanceStore.Upholds id (o.cluster.instances.writes tx)

/-- Whether a move rolls the transaction back that is the last one to back an instance. -/
def Bereaves (o : Interplay η ω) (m : Move η ω) (id : InstanceId) : Prop :=
  ∃ tx, o.rollsBack? m = some tx ∧ ¬ InstanceStore.Unfinished (o.instance? id) ∧
    ∀ other, o.MayCommit other → InstanceStore.Upholds id (o.cluster.instances.writes other) →
      other = tx

/-- A transaction that backs an instance, and is neither committed nor rolled back, goes on to. -/
theorem MayCommit.hasBacking_step {id : InstanceId} (hmay : o.MayCommit tx)
    (hupholds : InstanceStore.Upholds id (o.cluster.instances.writes tx)) (ho : Orderly o)
    (hdrafted : Drafted o) (hpledged : Pledged o) (hrolls : o.rollsBack? m ≠ some tx)
    (hcommits : o.commits? m ≠ some tx) : (o.step app m).HasBacking id := by
  obtain ⟨w, hw, hid, hresult⟩ := hupholds
  have hwrites : o.writes tx ≠ [] := by
    rw [← hpledged.writes_of_unsettled hdrafted hmay.unsettled]
    exact List.ne_nil_of_mem hw
  exact .inr ⟨tx, hmay.step ho hpledged hwrites hrolls hcommits, w,
    hmay.mem_writes_step ho hcommits hw, hid, hresult⟩

/-- An instance keeps its backing unless that is rolled back, or a commit is heard of that brings
the instance to its end. -/
theorem HasBacking.step {id : InstanceId} (h : o.HasBacking id) (ho : Orderly o)
    (hdrafted : Drafted o) (hpledged : Pledged o) (hbereaves : ¬ o.Bereaves m id) :
    (o.step app m).HasBacking id ∨ ∃ tx, o.commits? m = some tx ∧
      InstanceStore.Ends id (o.instance? id) (o.cluster.instances.writes tx) := by
  have hinstance : (o.step app m).instance? id = _ := o.instance?_step m id
  cases hcommits : o.commits? m with
  | some own =>
      rw [hcommits] at hinstance
      simp only [InstanceStore.view_eq_seen] at hinstance
      have hcommitted : InstanceStore.Ends id (o.instance? id) (o.cluster.instances.writes own) ∨
          InstanceStore.Unfinished ((o.step app m).instance? id) →
          (o.step app m).HasBacking id ∨ ∃ tx, some own = some tx ∧
            InstanceStore.Ends id (o.instance? id) (o.cluster.instances.writes tx) := by
        rintro (hends | hunfinished)
        · exact .inr ⟨own, rfl, hends⟩
        · exact .inl (.inl hunfinished)
      rw [hinstance] at hcommitted
      rcases h with hunfinished | ⟨tx, hmay, hupholds⟩
      · exact hcommitted (InstanceStore.ends_or_unfinished hunfinished _)
      · by_cases hown : tx = own
        · subst hown
          exact hcommitted (InstanceStore.ends_or_unfinished_of_upholds hupholds _)
        · refine .inl (hmay.hasBacking_step hupholds ho hdrafted hpledged ?_ fun heq => ?_)
          · intro hrolls
            rw [(unmoved_of_rollsBack app hrolls).2.1] at hcommits
            cases hcommits
          · exact hown (Option.some.inj (heq.symm.trans hcommits))
  | none =>
      rw [hcommits] at hinstance
      rcases h with hunfinished | ⟨tx, hmay, hupholds⟩
      · exact .inl (.inl (hinstance ▸ hunfinished))
      · by_cases hrolls : o.rollsBack? m = some tx
        · by_cases hunfinished : InstanceStore.Unfinished (o.instance? id)
          · exact .inl (.inl (hinstance ▸ hunfinished))
          · obtain ⟨other, hmayOther, hupholdsOther, hother⟩ : ∃ other, o.MayCommit other ∧
                InstanceStore.Upholds id (o.cluster.instances.writes other) ∧ other ≠ tx := by
              refine Classical.byContradiction fun hnone => hbereaves ⟨tx, hrolls, hunfinished, ?_⟩
              intro other hmayOther hupholdsOther
              exact Classical.byContradiction fun hne =>
                hnone ⟨other, hmayOther, hupholdsOther, hne⟩
            refine .inl (hmayOther.hasBacking_step hupholdsOther ho hdrafted hpledged
              (fun heq => ?_) (by simp [hcommits]))
            exact hother (Option.some.inj (heq.symm.trans hrolls))
        · exact .inl (hmay.hasBacking_step hupholds ho hdrafted hpledged hrolls
            (by simp [hcommits]))

/-- An instance that a rollback deprives of its last backing has none. -/
theorem Bereaves.not_hasBacking {id : InstanceId} (h : o.Bereaves m id) (ho : Orderly o) :
    ¬ (o.step app m).HasBacking id := by
  obtain ⟨tx, hrolls, hfinished, hlast⟩ := h
  obtain ⟨hunmoved, _, hbegins⟩ := unmoved_of_rollsBack app hrolls
  have hinstances := hunmoved.instances
  rintro (hunfinished | ⟨other, hmay, hupholds⟩)
  · rw [instance?, hinstances] at hunfinished
    exact hfinished hunfinished
  · rw [hinstances] at hupholds
    obtain ⟨hbefore | hbegun, hkept⟩ := mayCommit_of_step ho hmay
    · exact hkept (hlast other hbefore hupholds ▸ hrolls)
    · rw [hbegins] at hbegun
      cases hbegun

/-! ## The routes of a node -/

/-- Whether the owners of all routes of a node have backing. -/
def Backed (n : NodeName) (o : Interplay η ω) : Prop :=
  ∀ key route, (o.cluster.routes n).get? key = some route → o.HasBacking route.instanceId

/-- Whether a move rolls back the last transaction to back the owner of a route. -/
def Orphans (n : NodeName) (o : Interplay η ω) (m : Move η ω) : Prop :=
  ∃ key route, (o.cluster.routes n).get? key = some route ∧ o.Bereaves m route.instanceId

/-- Whether a node listens, and is given routes by a move only for owners of routes that it has, or
for instances that an open transaction sees before their end. -/
def Minds (n : NodeName) (o : Interplay η ω) (m : Move η ω) : Prop :=
  .cleanUp n ∈ o.cluster.listeners ∧
    match m with
    | .registry _ (.setRoutes routes) =>
      ∀ key route, routes.get? key = some route →
        (∃ other old, (o.cluster.routes n).get? other = some old ∧
            old.instanceId = route.instanceId) ∨
          ∃ tx t, o.cluster.transaction? tx = some t ∧
            InstanceStore.Unfinished (o.cluster.instances.view tx route.instanceId)
    | _ => True

/-- Once a commit is heard of that brings an instance to its end, a node that listens has no route
of it. -/
theorem ne_instanceId_of_ends {id : InstanceId} (hlistens : .cleanUp n ∈ o.cluster.listeners)
    (hcommits : o.commits? m = some tx)
    (hends : InstanceStore.Ends id (o.instance? id) (o.cluster.instances.writes tx))
    {key : RouteKey} {route : ResourceRoute}
    (hroute : ((o.step app m).cluster.routes n).get? key = some route) :
    route.instanceId ≠ id := by
  obtain ⟨event, hevent, rfl⟩ := (InstanceStore.exists_event_iff
    (o.cluster.instances.writes tx) o.cluster.instances.committed id).mpr hends
  rw [← announced_of_commits hcommits] at hevent
  rw [cluster_step_of_commits app hcommits] at hroute
  exact (Cluster.clear_announce (c := { o.cluster with
    instances := (o.cluster.instances.complete tx true).2 }) hlistens hevent).routes
      key route hroute

/-- If the owners of all routes of a node have backing, they have it after a move exactly if the
move does not roll back the last transaction to back one of them. -/
theorem backed_step_iff (h : o.Backed n) (ho : Orderly o) (hdrafted : Drafted o)
    (hpledged : Pledged o) (hm : o.Minds n m) :
    (o.step app m).Backed n ↔ ¬ o.Orphans n m := by
  constructor
  · rintro hbacked ⟨key, route, hroute, hbereaves⟩
    obtain ⟨tx, hrolls, _⟩ := id hbereaves
    have hregistry := (unmoved_of_rollsBack app hrolls).1.registry n
    refine hbereaves.not_hasBacking ho (hbacked key route ?_)
    rwa [Cluster.routes, hregistry]
  · intro horphans key route hroute
    have hkept : ∀ other old, (o.cluster.routes n).get? other = some old →
        old.instanceId = route.instanceId → (o.step app m).HasBacking route.instanceId := by
      intro other old hold hid
      have hbereaves : ¬ o.Bereaves m route.instanceId :=
        fun hbereaves => horphans ⟨other, old, hold, hid ▸ hbereaves⟩
      rcases (hid ▸ h other old hold).step ho hdrafted hpledged hbereaves with
        hbacking | ⟨tx, hcommits, hends⟩
      · exact hbacking
      · exact absurd rfl (ne_instanceId_of_ends hm.1 hcommits hends hroute)
    rcases get?_routes_step hroute with hold | ⟨routes, rfl, hget⟩
    · exact hkept key route hold rfl
    · rcases hm.2 key route hget with ⟨other, old, hold, hid⟩ | ⟨tx, t, ht, hview⟩
      · exact hkept other old hold hid
      · rcases InstanceStore.upholds_of_view hview with hunfinished | hupholds
        · exact .inl hunfinished
        · exact .inr ⟨tx, .inl ⟨t, ht, trivial⟩, hupholds⟩

/-- Adding a route for an instance that an open transaction sees before its end. -/
theorem minds_add {t : Transaction (Callback η)} {routes : Routes} {route : ResourceRoute}
    (hlistens : .cleanUp n ∈ o.cluster.listeners) (ht : o.cluster.transaction? tx = some t)
    (hview : InstanceStore.Unfinished (o.cluster.instances.view tx route.instanceId))
    (hadd : (o.cluster.routes n).add route = .ok routes) :
    o.Minds n (.registry n (.setRoutes routes)) := by
  refine ⟨hlistens, fun key other hother => ?_⟩
  rw [Routes.get?_add hadd] at hother
  split at hother
  · cases hother
    exact .inr ⟨tx, t, ht, hview⟩
  · exact .inl ⟨key, other, hother, rfl⟩

/-- If no transaction is open, and none has writes to apply, all transactions are settled. -/
theorem not_isUnsettled (htransactions : o.cluster.transactions.isEmpty = true)
    (hdepartures : o.departures.any Departure.willApply = false) (tx : TxId) :
    ¬ o.IsUnsettled tx := by
  rintro (⟨t, ht⟩ | ⟨d, hd, _, hwill⟩)
  · have hmem := (o.cluster.transactions.mem_entries_iff tx t).mpr ht
    rw [List.isEmpty_iff.mp htransactions] at hmem
    cases hmem
  · exact absurd hwill (List.any_eq_false.mp hdepartures d hd)

/-- A move that rolls back no transaction orphans no route. -/
theorem not_orphans_of_rollsBack?_eq_none (h : o.rollsBack? m = none) : ¬ o.Orphans n m := by
  rintro ⟨key, route, _, tx, hrolls, _⟩
  rw [h] at hrolls
  cases hrolls

/-- In a history in which a node that listens is given routes only for instances that an open
transaction sees before their end, the owners of all its routes have backing in every state exactly
if no rollback takes the last backing of one of them away. In a history without such a rollback,
once no transaction is open or may commit otherwise, the owner of every route of the node is
committed and has not come to its end. -/
theorem backed_iff (app : Application η ω) {c : Cluster η ω} (hc : c.AtRest)
    (hstaged : ∀ tx, c.instances.isOpen tx = false) {n : NodeName}
    (hroutes : ∀ key route, (c.routes n).get? key = some route →
      InstanceStore.Unfinished (c.instances.get? route.instanceId)) (moves : List (Move η ω))
    (hmoves : Throughout app (Minds n) ⟨c, [], []⟩ moves) :
    let start : Interplay η ω := ⟨c, [], []⟩
    let o := start.play app moves
    (Throughout app (fun o m => (o.step app m).Backed n) start moves ↔
        Throughout app (fun o m => ¬ o.Orphans n m) start moves) ∧
      (Throughout app (fun o m => ¬ o.Orphans n m) start moves → (∀ tx, ¬ o.MayCommit tx) →
        ∀ key route, (o.cluster.routes n).get? key = some route →
          ∃ p, o.instance? route.instanceId = some p ∧ p.isFinished = false) := by
  intro start o
  have hstart : start.Backed n := fun key route hroute => .inl (hroutes key route hroute)
  have hinduction : ∀ {o : Interplay η ω} {moves : List (Move η ω)}, o.Backed n → Orderly o →
      Drafted o → Pledged o → Throughout app (Minds n) o moves →
      (Throughout app (fun o m => (o.step app m).Backed n) o moves ↔
        Throughout app (fun o m => ¬ o.Orphans n m) o moves) ∧
      (Throughout app (fun o m => ¬ o.Orphans n m) o moves → (o.play app moves).Backed n) := by
    intro o moves hbacked ho hdrafted hpledged hminds
    induction moves generalizing o with
    | nil => exact ⟨.rfl, fun _ => hbacked⟩
    | cons m rest ih =>
        have hstep : (o.step app m).Backed n ↔ ¬ o.Orphans n m :=
          backed_step_iff hbacked ho hdrafted hpledged hminds.1
        have hrest := fun hnext : (o.step app m).Backed n =>
          ih hnext (ho.step m) (hdrafted.step ho m) (hpledged.step ho hdrafted m) hminds.2
        refine ⟨?_, fun ⟨horphans, hothers⟩ => (hrest (hstep.mpr horphans)).2 hothers⟩
        constructor
        · rintro ⟨hnext, hothers⟩
          exact ⟨hstep.mp hnext, (hrest hnext).1.mp hothers⟩
        · rintro ⟨horphans, hothers⟩
          have hnext := hstep.mpr horphans
          exact ⟨hnext, (hrest hnext).1.mpr hothers⟩
  obtain ⟨hiff, hplay⟩ :=
    hinduction hstart (.start hc) (.start hc) (.start hstaged) hmoves
  refine ⟨hiff, fun horphans hquiet key route hroute => ?_⟩
  rcases hplay horphans key route hroute with hunfinished | ⟨tx, hmay, _⟩
  · exact hunfinished
  · exact absurd hmay (hquiet tx)

/-- A route of the sample instance. -/
def sampleRoute : ResourceRoute :=
  { key := ⟨"/orders", "PUT"⟩, pickSelector := "sel", instanceId := sample.id, channel := "ch" }

/-- The routes of a node that has this one alone. -/
def sampleRoutes : Routes :=
  { table := (∅ : Table RouteKey ResourceRoute).insert sampleRoute.key sampleRoute }

/-- A transaction creates the sample instance, and the node is given the route. -/
def listening : List (Move Unit Unit) :=
  [.begin "a" .main, .work ⟨0⟩ (.createInstance sample), .registry "a" (.setRoutes sampleRoutes)]

theorem minds_listening {rest : List (Move Unit Unit)}
    (h : Throughout .silent (Minds "a") (playAttentive listening) rest) :
    Throughout .silent (Minds "a") ⟨attentive, [], []⟩ (listening ++ rest) := by
  obtain ⟨t, ht⟩ : ∃ t, (playAttentive (listening.take 2)).cluster.transaction? ⟨0⟩ = some t :=
    ⟨_, rfl⟩
  refine ⟨⟨by decide +kernel, trivial⟩, ⟨by decide +kernel, trivial⟩, ?_, h⟩
  have hview : InstanceStore.Unfinished
      ((playAttentive (listening.take 2)).cluster.instances.view ⟨0⟩ sampleRoute.instanceId) :=
    ⟨sample, by decide +kernel, by decide⟩
  exact minds_add (by decide +kernel) ht hview rfl

/-- The transaction commits, and another one that has written the instance as well rolls back. -/
def settled : List (Move Unit Unit) :=
  listening ++ [.depart ⟨0⟩ .main .commit, .advance 0, .advance 0, .begin "a" .main,
    .work ⟨1⟩ (.setInstanceKey sample.id "order" "17"), .depart ⟨1⟩ .main .rollback, .advance 1]

/-- The route has kept the backing of its owner, which is committed. -/
theorem backed_iff_settled :
    Throughout .silent (Minds "a") ⟨attentive, [], []⟩ settled ∧
      Throughout .silent (fun o m => ¬ o.Orphans "a" m) ⟨attentive, [], []⟩ settled ∧
      (∀ tx, ¬ (playAttentive settled).MayCommit tx) ∧
      ((playAttentive settled).cluster.routes "a").get? sampleRoute.key = some sampleRoute ∧
      ∃ p, (playAttentive settled).instance? sample.id = some p ∧ p.isFinished = false := by
  have hminds : Throughout .silent (Minds "a") ⟨attentive, [], []⟩ settled := by
    refine minds_listening ⟨⟨?_, trivial⟩, ⟨?_, trivial⟩, ⟨?_, trivial⟩, ⟨?_, trivial⟩,
      ⟨?_, trivial⟩, ⟨?_, trivial⟩, ⟨?_, trivial⟩, trivial⟩ <;> decide +kernel
  have hrollback :
      ¬ (playAttentive (settled.take 8)).Orphans "a" (.depart ⟨1⟩ .main .rollback) := by
    rintro ⟨key, route, hroute, tx, _, hfinished, _⟩
    have hroutes : (playAttentive (settled.take 8)).cluster.routes "a" = sampleRoutes := by
      decide +kernel
    have howner : route.instanceId = sample.id := by
      rw [hroutes, Routes.get?, sampleRoutes, Table.get?_insert] at hroute
      split at hroute
      · cases hroute
        rfl
      · cases hroute
    exact hfinished (howner ▸ ⟨sample, by decide +kernel, by decide⟩)
  have horphans :
      Throughout .silent (fun o m => ¬ o.Orphans "a" m) ⟨attentive, [], []⟩ settled := by
    refine ⟨?_, ?_, ?_, ?_, ?_, ?_, ?_, ?_, hrollback, ?_, trivial⟩ <;>
      exact not_orphans_of_rollsBack?_eq_none (by decide +kernel)
  have hquiet : ∀ tx, ¬ (playAttentive settled).MayCommit tx := fun tx hmay =>
    not_isUnsettled (by decide +kernel) (by decide +kernel) tx hmay.unsettled
  have hroute : ((playAttentive settled).cluster.routes "a").get? sampleRoute.key =
      some sampleRoute := by
    decide +kernel
  refine ⟨hminds, horphans, hquiet, hroute, ?_⟩
  exact (backed_iff .silent atRest_attentive (fun _ => rfl) (fun _ _ h => by cases h) settled
    hminds).2 horphans hquiet sampleRoute.key sampleRoute hroute

/-- The transaction that creates the instance rolls back. -/
def strayed : List (Move Unit Unit) :=
  listening ++ [.depart ⟨0⟩ .main .rollback, .advance 0]

/-- The route stands although the instance that it was added for was never committed: no transaction
is open, and none has its writes still to be applied or forgotten. -/
theorem route_without_instance :
    Throughout .silent (Minds "a") ⟨attentive, [], []⟩ strayed ∧
      (∀ tx, ¬ (playAttentive strayed).IsUnsettled tx) ∧
      ((playAttentive strayed).cluster.routes "a").get? sampleRoute.key = some sampleRoute ∧
      (playAttentive strayed).instance? sampleRoute.instanceId = none := by
  refine ⟨minds_listening ⟨⟨?_, trivial⟩, ⟨?_, trivial⟩, trivial⟩, ?_, ?_, ?_⟩
  · decide +kernel
  · decide +kernel
  · exact not_isUnsettled (by decide +kernel) (by decide +kernel)
  · decide +kernel
  · decide +kernel

end Interplay

end JobCluster
