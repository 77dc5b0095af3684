import JobCluster.Proofs.Cluster.Bookkeeping
import JobCluster.Proofs.Job.Fenced
/-!
# Staged jobs and their transactions

A job is staged by the transaction that schedules it, and a callback publishes or discards it when
that transaction comes to its end. This file follows the staged jobs through histories of
overlapping transactions, while the job store comes and goes. A discarding works at all times, but a
publication that the store refuses leaves the job staged for good, although its transaction has
committed.

Main results:

- `Interplay.accounted_of_not_refuses`: a move leaves a staged job to a transaction that is yet to
  settle it, unless the move is a publication that the store refuses;
- `Interplay.accounted_iff`: so it is throughout a history exactly if no publication is refused;
- `Interplay.staged_after_commit`: a publication that comes while the store is unavailable.
-/

namespace JobCluster

variable {η ω : Type}

/-! ## Staged jobs -/

/-- Whether a job is staged. -/
def JobStore.isStaged (s : JobStore) (id : JobId) : Bool :=
  (s.find? id).any fun r => decide (r.state = .staged)

/-- A job is staged if its record says so. -/
theorem JobStore.isStaged_iff {s : JobStore} {id : JobId} :
    s.isStaged id = true ↔ ∃ r, s.find? id = some r ∧ r.state = .staged := by
  simp [isStaged, Option.any_eq_true]

namespace StoreCall

/-- Only the call that stages a job makes it a staged one. -/
theorem isStaged_of_apply {s : JobStore} {a : StoreCall} {id : JobId} (ha : a.stages id = false)
    (h : (a.apply s).isStaged id = true) : s.isStaged id = true := by
  obtain ⟨r, hr, hstate⟩ := JobStore.isStaged_iff.mp h
  obtain ⟨x, hx, hrevises⟩ := revises_of_find?_apply ha hr
  refine JobStore.isStaged_iff.mpr ⟨x, hx, ?_⟩
  exact Decidable.byContradiction fun hunstaged => hrevises.unstaged hunstaged hstate

/-- A publication that the store accepts leaves no job staged. -/
theorem isStaged_publish {s : JobStore} {id : JobId} (h : s.available = true) :
    ((publish id).apply s).isStaged id = false := by
  have hfind := find?_publish s id id h
  rw [if_pos rfl] at hfind
  unfold JobStore.isStaged apply
  rw [hfind]
  cases s.find? id with
  | none => rfl
  | some r => by_cases hstaged : r.state = .staged <;> simp [revise, hstaged]

/-- A publication that the store refuses changes nothing. -/
theorem publish_of_not_available {s : JobStore} {id : JobId} (h : s.available = false) :
    (publish id).apply s = s :=
  apply_of_not_accepted s (publish id) h fun _ => StoreCall.noConfusion

/-- A discarded job is staged no longer, whether or not the store is available. -/
theorem isStaged_discard (s : JobStore) (id : JobId) :
    ((discard id).apply s).isStaged id = false := by
  have hfind := find?_discard s id id
  rw [if_pos rfl] at hfind
  unfold JobStore.isStaged apply
  rw [hfind]
  cases s.find? id with
  | none => rfl
  | some r => by_cases hstaged : r.state = .staged <;> simp [revise, hstaged, Option.filter]

end StoreCall

/-- A callback stages no job. -/
theorem Cluster.isStaged_of_carryOut {app : Application η ω} {thread : Thread} {phase : Phase}
    {c : Cluster η ω} {callback : Callback η} {id : JobId}
    (h : (c.carryOut app thread phase callback).jobs.isStaged id = true) :
    c.jobs.isStaged id = true := by
  rw [jobs_carryOut] at h
  cases hcall : c.callbackCall phase callback with
  | none =>
      rw [hcall] at h
      exact h
  | some a =>
      rw [hcall] at h
      refine StoreCall.isStaged_of_apply ?_ h
      cases callback with
      | publish n plan =>
          simp only [callbackCall, Option.some.injEq] at hcall
          subst hcall
          split <;> rfl
      | drop n j armed =>
          cases armed with
          | false => simp [callbackCall] at hcall
          | true =>
              simp only [callbackCall, if_true, Option.some.injEq] at hcall
              subst hcall
              rfl
      | queue n info | applyWrites tx | withdraw n j | custom script => simp [callbackCall] at hcall

/-! ## Transactions that are yet to settle a job -/

/-- The job that a callback publishes or discards. -/
def Callback.settles? : Callback η → Option JobId
  | .publish _ plan => some plan.record.id
  | .queue _ _ | .drop _ _ _ | .applyWrites _ | .withdraw _ _ | .custom _ => none

/-- Whether a transaction has a callback that publishes or discards a job when it ends. -/
def Transaction.Settles (t : Transaction (Callback η)) (id : JobId) : Prop :=
  ∃ x ∈ t.synchronizers, x.moment = .after ∧ x.callback.settles? = some id

/-- Whether a transaction on its way out is yet to publish or discard a job. -/
def Departure.WillSettle (d : Departure η) (id : JobId) : Prop :=
  match d.round with
  | .preparing _ => d.transaction.Settles id
  | .concluding _ rest => ∃ callback ∈ rest, callback.settles? = some id

/-- A callback that settles a job runs after the end, whatever becomes of the transaction. -/
theorem lasts_of_settles? {x : Synchronizer (Callback η)} {id : JobId}
    (h : x.callback.settles? = some id) : x.lasts = true := by
  unfold Synchronizer.lasts
  cases hx : x.callback with
  | drop n j armed => simp [hx, Callback.settles?] at h
  | publish n plan | queue n info | applyWrites tx | withdraw n j | custom script => rfl

/-- The callback that settles a job learns of either end. -/
theorem Transaction.Settles.callbacks {t : Transaction (Callback η)} {id : JobId}
    (h : t.Settles id) (committed : Bool) :
    ∃ callback ∈ t.callbacks (.after committed), callback.settles? = some id := by
  obtain ⟨x, hx, hmoment, hid⟩ := h
  have htakes : x.moment.takesPart (.after committed) = true := by
    rw [hmoment]
    rfl
  exact ⟨x.callback, mem_callbacks_iff.mpr ⟨x, hx, htakes, rfl⟩, hid⟩

/-- A transaction that settles a job still does with more callbacks that last. -/
theorem Transaction.Settles.mono {t t' : Transaction (Callback η)} {id : JobId} (h : t.Settles id)
    {more : List (Synchronizer (Callback η))} (hlasting : t'.lasting = t.lasting ++ more) :
    t'.Settles id := by
  obtain ⟨x, hx, hmoment, hid⟩ := h
  have hmem : x ∈ t'.lasting := by
    rw [hlasting]
    exact List.mem_append_left _ (mem_lasting.mpr ⟨hx, lasts_of_settles? hid⟩)
  exact ⟨x, (mem_lasting.mp hmem).1, hmoment, hid⟩

namespace Interplay

/-- Whether a transaction is yet to publish or discard a job: it is open, or on its way out, and the
callback that does so is still to run. -/
def WillSettle (o : Interplay η ω) (tx : TxId) (id : JobId) : Prop :=
  (∃ t, o.cluster.transaction? tx = some t ∧ t.Settles id) ∨
    ∃ d ∈ o.departures, d.tx = tx ∧ d.WillSettle id

/-- Whether a job, if it is staged, belongs to a transaction that is yet to settle it. -/
def Accounted (o : Interplay η ω) (id : JobId) : Prop :=
  o.cluster.jobs.isStaged id = true → ∃ tx, .job id ∈ o.deeds tx ∧ o.WillSettle tx id

/-- Whether a move is the publication of a staged job after a commit, and the store refuses it. -/
def refuses (id : JobId) (o : Interplay η ω) (m : Move η ω) : Bool :=
  match o.carries? m with
  | some (_, .after true, .publish _ plan) =>
    decide (plan.record.id = id) && !o.cluster.jobs.available && o.cluster.jobs.isStaged id
  | _ => false

namespace Orderly

variable {o : Interplay η ω}

/-- A job that a transaction settles was scheduled by that transaction. -/
theorem job_of_settles {tx : TxId} {t : Transaction (Callback η)}
    (ht : t.lasting = o.registered tx) {x : Synchronizer (Callback η)} (hx : x ∈ t.synchronizers)
    {id : JobId} (hid : x.callback.settles? = some id) : .job id ∈ o.deeds tx := by
  obtain ⟨e, he, htx, hregistered⟩ := exists_entry ht hx (lasts_of_settles? hid)
  have hdeed := e.effect.of_registered hregistered
  cases hcallback : x.callback with
  | publish n plan =>
      rw [hcallback] at hid hdeed
      cases hid
      exact mem_deeds.mpr ⟨e, he, htx, hdeed.2⟩
  | queue n info | drop n j armed | applyWrites tx | withdraw n j | custom script =>
      simp [hcallback, Callback.settles?] at hid

/-- A transaction settles every job once. -/
theorem settles_pairwise (h : Orderly o) {tx : TxId} {t : Transaction (Callback η)}
    (ht : t.lasting = o.registered tx) (phase : Phase) :
    (t.callbacks phase).Pairwise fun f g => ∀ id, f.settles? = some id → g.settles? ≠ some id := by
  have hregistered : (o.registered tx).Pairwise fun x y => ∀ id, x.callback.settles? = some id →
      y.callback.settles? ≠ some id := by
    refine List.pairwise_flatMap.mpr ⟨fun e _ => e.pairwise_registered _, ?_⟩
    refine (h.apart.filter _).imp fun {e f} hef x hx y hy id hxid hyid => ?_
    have hxdeed := e.effect.of_registered (WorkEntry.mem_registered.mp hx).1
    have hydeed := f.effect.of_registered (WorkEntry.mem_registered.mp hy).1
    cases hxc : x.callback with
    | publish n plan =>
        cases hyc : y.callback with
        | publish m other =>
            rw [hxc] at hxid hxdeed
            rw [hyc] at hyid hydeed
            cases hxid
            have hid : other.record.id = plan.record.id := Option.some.inj hyid
            exact hef _ hxdeed.2 _ hydeed.2 hid.symm
        | queue m info | drop m j armed | applyWrites tx | withdraw m j | custom script =>
            simp [hyc, Callback.settles?] at hyid
    | queue m info | drop m j armed | applyWrites tx | withdraw m j | custom script =>
        simp [hxc, Callback.settles?] at hxid
  rw [← ht] at hregistered
  unfold Transaction.callbacks
  refine List.pairwise_map.mpr (List.Pairwise.filter _ ?_)
  refine (List.pairwise_filter.mp hregistered).imp fun {x y} hxy id hxid hyid => ?_
  exact hxy (lasts_of_settles? hxid) (lasts_of_settles? hyid) id hxid hyid

end Orderly

/-! ## Moves -/

section Moves

variable {o : Interplay η ω} {id : JobId} {tx : TxId} {app : Application η ω}

/-- A transaction on its way out that takes a step is yet to settle what it was, apart from what
that step has settled. -/
theorem WillSettle.moveTo (h : o.WillSettle tx id) {i : Nat} {d : Departure η} {round : Round η}
    {c : Cluster η ω} (hd : o.departures[i]? = some d)
    (htransactions : c.transactions = o.cluster.transactions)
    (hround : d.WillSettle id → (d.moveTo round).WillSettle id) :
    ({ o with cluster := c, departures := o.departures.set i (d.moveTo round) } :
      Interplay η ω).WillSettle tx id := by
  rcases h with ⟨t, ht, hsettles⟩ | ⟨e, he, htx, hsettles⟩
  · refine .inl ⟨t, ?_, hsettles⟩
    rwa [Cluster.transaction?, htransactions]
  · right
    obtain ⟨j, hj, rfl⟩ := List.getElem_of_mem he
    obtain ⟨hi, hget⟩ := List.getElem?_eq_some_iff.mp hd
    by_cases hij : i = j
    · subst hij
      rw [hget] at htx hsettles
      exact ⟨d.moveTo round, List.mem_set hi _, htx, hround hsettles⟩
    · refine ⟨o.departures[j], ?_, htx, hsettles⟩
      rw [← List.getElem_set_ne hij (by simpa using hj)]
      exact List.getElem_mem _

/-- A transaction that begins settles nothing. -/
theorem WillSettle.begun (h : o.WillSettle tx id) (ho : Orderly o) {new : TxId}
    {c : Cluster η ω} (hbegun : o.cluster.Begun new c) :
    ({ o with cluster := c } : Interplay η ω).WillSettle tx id := by
  refine h.imp_left ?_
  rintro ⟨t, ht, hsettles⟩
  refine ⟨t, ?_, hsettles⟩
  have hlt := ho.openedNumber tx t ht
  obtain ⟨_, _, htransaction⟩ := hbegun.transaction
  have hne : tx ≠ new := by
    intro heq
    rw [heq, hbegun.number] at hlt
    exact Nat.lt_irrefl _ hlt
  rw [htransaction, if_neg hne, ht]

/-- A transaction that goes on working settles what it was to settle. -/
theorem WillSettle.worked (h : o.WillSettle tx id) {own : TxId} {t : Transaction (Callback η)}
    (a : WorkCall η) (ht : o.cluster.transaction? own = some t) (log : List (WorkEntry η ω)) :
    ({ o with cluster := (a.perform own o.cluster).2, log } : Interplay η ω).WillSettle tx id := by
  have heffect := a.effect_perform own o.cluster
  obtain ⟨t', ht', hlasting⟩ := heffect.own ht
  refine h.imp_left ?_
  rintro ⟨s, hs, hsettles⟩
  by_cases hown : tx = own
  · subst hown
    cases ht.symm.trans hs
    exact ⟨t', ht', hsettles.mono hlasting⟩
  · exact ⟨s, (heffect.others hown).trans hs, hsettles⟩

/-- A transaction takes what it was to settle along on its way out. -/
theorem WillSettle.departed (h : o.WillSettle tx id) {own : TxId} (thread : Thread)
    {t : Transaction (Callback η)} {round : Round η} {c : Cluster η ω}
    (ht : o.cluster.transaction? own = some t)
    (hround : round = .preparing (t.callbacks .before) ∨
      round = .concluding false (t.callbacks (.after false)))
    (htransactions : c.transactions = o.cluster.transactions.erase own) :
    ({ o with cluster := c, departures := o.departures ++ [⟨own, thread, t, round⟩] } :
      Interplay η ω).WillSettle tx id := by
  rcases h with ⟨s, hs, hsettles⟩ | ⟨d, hd, htx, hsettles⟩
  · by_cases hown : tx = own
    · subst hown
      cases ht.symm.trans hs
      have hlast : (⟨tx, thread, t, round⟩ : Departure η) ∈
          o.departures ++ [⟨tx, thread, t, round⟩] :=
        List.mem_append_right _ (List.mem_singleton_self _)
      refine .inr ⟨_, hlast, rfl, ?_⟩
      rcases hround with rfl | rfl
      · exact hsettles
      · exact hsettles.callbacks false
    · refine .inl ⟨s, ?_, hsettles⟩
      rw [Cluster.transaction?, htransactions, Table.get?_erase, if_neg hown]
      exact hs
  · exact .inr ⟨d, List.mem_append_left _ hd, htx, hsettles⟩

/-- A job that a call stages belongs to the transaction that makes the call. -/
theorem Accounted.worked (h : o.Accounted id) (a : WorkCall η) {t : Transaction (Callback η)}
    (ht : o.cluster.transaction? tx = some t) :
    ({ o with
        cluster := (a.perform tx o.cluster).2
        log := o.log ++ [⟨tx, a, o.cluster⟩] } : Interplay η ω).Accounted id := by
  intro hstaged
  have heffect := a.effect_perform tx o.cluster
  have hold : o.cluster.jobs.isStaged id = true → ∃ other, .job id ∈
      ({ o with
          cluster := (a.perform tx o.cluster).2
          log := o.log ++ [⟨tx, a, o.cluster⟩] } : Interplay η ω).deeds other ∧
      ({ o with
          cluster := (a.perform tx o.cluster).2
          log := o.log ++ [⟨tx, a, o.cluster⟩] } : Interplay η ω).WillSettle other id := by
    intro hbefore
    obtain ⟨other, hdeed, hsettle⟩ := h hbefore
    obtain ⟨e, he, hrest⟩ := mem_deeds.mp hdeed
    exact ⟨other, mem_deeds.mpr ⟨e, List.mem_append_left _ he, hrest⟩, hsettle.worked a ht _⟩
  rcases heffect.jobs with ⟨plan, hdrawn, hjobs, n, hregistered⟩ | hjobs | ⟨call, hcall, _, hjobs⟩
  · by_cases hid : plan.record.id = id
    · obtain ⟨t', ht', hlasting⟩ := heffect.own ht
      rw [hregistered] at hlasting
      have hmem : (⟨.after, .publish n plan⟩ : Synchronizer (Callback η)) ∈
          a.registers tx o.cluster (a.perform tx o.cluster).1 := by
        rw [hregistered]
        exact List.mem_singleton_self _
      have hin : (⟨.after, .publish n plan⟩ : Synchronizer (Callback η)) ∈ t'.lasting := by
        rw [hlasting]
        exact List.mem_append_right _ (List.mem_singleton_self _)
      have hdeed : .job plan.record.id ∈ a.deeds (a.perform tx o.cluster).1 :=
        (heffect.of_registered hmem).2
      rw [← hid]
      exact ⟨tx, mem_deeds.mpr ⟨_, List.mem_append_right _ (List.mem_singleton_self _), rfl, hdeed⟩,
        .inl ⟨t', ht', _, (Transaction.mem_lasting.mp hin).1, rfl, rfl⟩⟩
    · refine hold ?_
      rw [show _ = _ from hjobs] at hstaged
      simpa [JobStore.isStaged, hid] using hstaged
  · rw [show _ = _ from hjobs] at hstaged
    exact hold hstaged
  · rw [show _ = _ from hjobs] at hstaged
    exact hold (StoreCall.isStaged_of_apply (hcall id) hstaged)

/-- A callback that settles a job leaves it staged only if it is a publication that the store
refuses. -/
theorem not_isStaged_of_settles {i : Nat} {d : Departure η} {committed : Bool}
    {callback : Callback η} {rest : List (Callback η)} (hd : o.departures[i]? = some d)
    (hround : d.round = .concluding committed (callback :: rest))
    (hid : callback.settles? = some id) (hrefuses : o.refuses id (.advance i) = false) :
    (o.cluster.carryOut app d.thread (.after committed) callback).jobs.isStaged id = false := by
  have hcarries := carries?_after_eq_some.mpr ⟨i, rest, rfl, hd, hround⟩
  cases callback with
  | publish n plan =>
      cases hid
      rw [Cluster.jobs_carryOut]
      cases committed with
      | false => exact StoreCall.isStaged_discard o.cluster.jobs plan.record.id
      | true =>
          cases havailable : o.cluster.jobs.available with
          | true => exact StoreCall.isStaged_publish havailable
          | false =>
              show ((StoreCall.publish plan.record.id).apply o.cluster.jobs).isStaged _ = false
              rw [StoreCall.publish_of_not_available havailable]
              simpa [refuses, hcarries, havailable] using hrefuses
  | queue n info | drop n j armed | applyWrites tx | withdraw n j | custom script =>
      simp [Callback.settles?] at hid

/-- A move leaves a staged job to a transaction that is yet to settle it, unless the move is a
publication that the store refuses. -/
theorem accounted_of_not_refuses (ho : Orderly o) (h : o.Accounted id) {m : Move η ω}
    (hm : ∀ r, m ≠ .store (.stage r)) (hrefuses : o.refuses id m = false) :
    (o.step app m).Accounted id := by
  have houtcome := outcome_step app o m
  generalize o.step app m = p at houtcome
  cases houtcome with
  | idle | refused => exact h
  | begun n thread hbegin =>
      have hbegun := Cluster.begin_eq_ok hbegin
      intro hstaged
      rw [show _ = _ from hbegun.jobs] at hstaged
      obtain ⟨tx, hdeed, hsettle⟩ := h hstaged
      exact ⟨tx, hdeed, hsettle.begun ho hbegun⟩
  | worked a ht => exact h.worked a ht
  | departed thread request ht hround hc htransactions =>
      intro hstaged
      rw [show _ = _ from hc.jobs] at hstaged
      obtain ⟨tx, hdeed, hsettle⟩ := h hstaged
      exact ⟨tx, hdeed, hsettle.departed thread ht hround htransactions⟩
  | before i hd hround =>
      intro hstaged
      obtain ⟨tx, hdeed, hsettle⟩ := h (Cluster.isStaged_of_carryOut hstaged)
      refine ⟨tx, hdeed, hsettle.moveTo hd (o.cluster.carryOut_frame app _ _ _).1 fun hwill => ?_⟩
      simpa [Departure.WillSettle, hround] using hwill
  | decided i committed hd hround hc htransactions =>
      intro hstaged
      rw [show _ = _ from hc.jobs] at hstaged
      obtain ⟨tx, hdeed, hsettle⟩ := h hstaged
      refine ⟨tx, hdeed, hsettle.moveTo hd htransactions fun hwill => ?_⟩
      simp only [Departure.WillSettle, hround] at hwill
      exact hwill.callbacks committed
  | after i hd hround =>
      intro hstaged
      obtain ⟨tx, hdeed, hsettle⟩ := h (Cluster.isStaged_of_carryOut hstaged)
      refine ⟨tx, hdeed, hsettle.moveTo hd (o.cluster.carryOut_frame app _ _ _).1 fun hwill => ?_⟩
      simp only [Departure.WillSettle, hround] at hwill
      obtain ⟨f, hf, hid⟩ := hwill
      rcases List.mem_cons.mp hf with rfl | hf
      · rw [show _ = _ from not_isStaged_of_settles hd hround hid hrefuses] at hstaged
        cases hstaged
      · exact ⟨f, hf, hid⟩
  | store a =>
      have ha : a.stages id = false := by
        cases a with
        | stage r => exact absurd rfl (hm r)
        | publish j | discard j | claim j node | finish j node outcome | cancel j
        | upgrade maxDue nodes | reassign source target | setAvailable b => rfl
      exact fun hstaged => h (StoreCall.isStaged_of_apply ha hstaged)
  | registry n a => exact h
  | elsewhere what =>
      intro hstaged
      rw [show _ = _ from what.jobs o.cluster] at hstaged
      obtain ⟨tx, hdeed, hsettle⟩ := h hstaged
      refine ⟨tx, hdeed, hsettle.imp_left ?_⟩
      rintro ⟨t, ht, hsettles⟩
      refine ⟨t, ?_, hsettles⟩
      rw [Cluster.transaction?, what.transactions]
      exact ht

/-- What a refused publication is: the next callback of a commit, for a staged job, at a store that
is not available. -/
theorem refuses_eq_true {m : Move η ω} (h : o.refuses id m = true) :
    ∃ i d n plan rest, m = .advance i ∧ o.departures[i]? = some d ∧
      d.round = .concluding true (.publish n plan :: rest) ∧ plan.record.id = id ∧
      o.cluster.jobs.available = false ∧ o.cluster.jobs.isStaged id = true := by
  unfold refuses at h
  split at h
  · next d n plan hcarries =>
    obtain ⟨i, rest, hm, hd, hround⟩ := carries?_after_eq_some.mp hcarries
    simp only [Bool.and_eq_true, decide_eq_true_eq, Bool.not_eq_true'] at h
    exact ⟨i, d, n, plan, rest, hm, hd, hround, h.1.1, h.1.2, h.2⟩
  · cases h

/-- A job whose publication is refused stays staged, and nobody is going to settle it. -/
theorem not_accounted_of_refuses (ho : Orderly o) {m : Move η ω}
    (hrefuses : o.refuses id m = true) : ¬ (o.step app m).Accounted id := by
  obtain ⟨i, d, n, plan, rest, rfl, hd, hround, hid, havailable, hstaged⟩ :=
    refuses_eq_true hrefuses
  have hnext : Orderly (o.step app (.advance i)) := ho.step (.advance i)
  rw [step_concluding hd hround] at hnext ⊢
  intro haccounted
  have hin : d ∈ o.departures := List.mem_of_getElem? hd
  have hsuffix := ho.suffix_after hin hround
  have hjobs : (o.cluster.carryOut app d.thread (.after true) (.publish n plan)).jobs =
      o.cluster.jobs := by
    rw [Cluster.jobs_carryOut]
    exact StoreCall.publish_of_not_available havailable
  obtain ⟨tx, hdeed, hsettle⟩ := haccounted ((congrArg (·.isStaged id) hjobs).trans hstaged)
  -- The transaction that scheduled the job is the one whose callback was refused.
  obtain ⟨x, hx, _, hcallback⟩ := Transaction.mem_callbacks_iff.mp (ho.mem_after hin hround)
  have hsettles : x.callback.settles? = some id := by
    rw [hcallback, ← hid]
    rfl
  have htx : tx = d.tx :=
    ho.job_unique hdeed (Orderly.job_of_settles (ho.departed d hin) hx hsettles)
  obtain ⟨hi, _⟩ := List.getElem?_eq_some_iff.mp hd
  have hlater : d.moveTo (.concluding true rest) ∈
      o.departures.set i (d.moveTo (.concluding true rest)) :=
    List.mem_set hi _
  rcases hsettle with ⟨t, ht, _⟩ | ⟨e, he, hetx, hwill⟩
  · have hclosed := hnext.closed _ hlater
    rw [htx] at ht
    rw [Departure.tx_moveTo, ht] at hclosed
    cases hclosed
  · obtain rfl := hnext.departure_unique he hlater (hetx.trans htx)
    obtain ⟨f, hf, hfid⟩ := hwill
    have hpair := (Orderly.settles_pairwise ho (ho.departed d hin) (.after true)).sublist
      hsuffix.sublist
    exact (List.pairwise_cons.mp hpair).1 f hf id (congrArg some hid) hfid

end Moves

/-! ## Histories -/

variable {app : Application η ω} {c : Cluster η ω} {id : JobId}

/-- As long as no publication is refused, every staged job belongs to a transaction that is yet to
settle it. -/
theorem accounted_play {o : Interplay η ω} (ho : Orderly o) (h : o.Accounted id)
    {moves : List (Move η ω)} (hmoves : ∀ m ∈ moves, ∀ r, m ≠ .store (.stage r))
    (hrefuses : Throughout app (fun p m => p.refuses id m = false) o moves) :
    (o.play app moves).Accounted id := by
  induction moves generalizing o with
  | nil => exact h
  | cons m rest ih =>
      have hcall := hmoves m List.mem_cons_self
      have hnext : (o.step app m).Accounted id := accounted_of_not_refuses ho h hcall hrefuses.1
      exact ih (ho.step m) hnext (fun n hn => hmoves n (List.mem_cons_of_mem m hn)) hrefuses.2

/-- In an orderly history in which nobody stages by hand, a staged job is accounted for throughout
if no publication is refused, and only then. -/
theorem accounted_iff_of_orderly {o : Interplay η ω} (ho : Orderly o) (h : o.Accounted id)
    {moves : List (Move η ω)} (hmoves : ∀ m ∈ moves, ∀ r, m ≠ .store (.stage r)) :
    Throughout app (fun p m => (p.step app m).Accounted id) o moves ↔
      Throughout app (fun p m => p.refuses id m = false) o moves := by
  induction moves generalizing o with
  | nil => exact Iff.rfl
  | cons m rest ih =>
      have hm := hmoves m List.mem_cons_self
      have hrest := fun n hn => hmoves n (List.mem_cons_of_mem m hn)
      cases hrefuses : o.refuses id m with
      | false =>
          have hnext : (o.step app m).Accounted id := accounted_of_not_refuses ho h hm hrefuses
          simp only [Throughout, hrefuses, hnext, true_and]
          exact ih (ho.step m) hnext hrest
      | true =>
          have hnext : ¬ (o.step app m).Accounted id := not_accounted_of_refuses ho hrefuses
          simp [Throughout, hrefuses, hnext]

/-- While everything is at rest, no job is staged. -/
theorem accounted_of_atRest (hc : c.AtRest) (id : JobId) :
    (⟨c, [], []⟩ : Interplay η ω).Accounted id := by
  intro hstaged
  obtain ⟨r, hr, hstate⟩ := JobStore.isStaged_iff.mp hstaged
  exact absurd hstate (hc.jobs id r hr)

/-- In a history in which jobs are staged by transactions alone, a staged job belongs to a
transaction that is yet to publish or discard it exactly as long as the store refuses no publication
of the job after a commit. If it refuses none, the job is staged no longer once its transaction has
run all its callbacks. -/
theorem accounted_iff (app : Application η ω) (hc : c.AtRest) {moves : List (Move η ω)}
    (hmoves : ∀ m ∈ moves, ∀ r, m ≠ .store (.stage r)) (id : JobId) :
    (Throughout app (fun o m => (o.step app m).Accounted id) ⟨c, [], []⟩ moves ↔
        Throughout app (fun o m => o.refuses id m = false) ⟨c, [], []⟩ moves) ∧
      (Throughout app (fun o m => o.refuses id m = false) ⟨c, [], []⟩ moves →
        ∀ d ∈ ((⟨c, [], []⟩ : Interplay η ω).play app moves).departures, d.isOver = true →
          .job id ∈ ((⟨c, [], []⟩ : Interplay η ω).play app moves).deeds d.tx →
          ((⟨c, [], []⟩ : Interplay η ω).play app moves).cluster.jobs.isStaged id = false) := by
  have hstart := accounted_of_atRest hc id
  refine ⟨accounted_iff_of_orderly (.start hc) hstart hmoves, fun hrefuses d hd hover hdeed => ?_⟩
  have horderly : Orderly ((⟨c, [], []⟩ : Interplay η ω).play app moves) := .play hc moves
  refine Bool.eq_false_iff.mpr fun hstaged => ?_
  obtain ⟨tx, hown, hsettle⟩ := accounted_play (.start hc) hstart hmoves hrefuses hstaged
  have htx := horderly.job_unique hown hdeed
  rcases hsettle with ⟨t, ht, _⟩ | ⟨e, he, hetx, hwill⟩
  · exact absurd htx.symm (horderly.tx_ne_of_open ht hd)
  · obtain rfl := horderly.departure_unique he hd (hetx.trans htx)
    unfold Departure.isOver at hover
    split at hover
    · next hround =>
      simp only [Departure.WillSettle, hround] at hwill
      obtain ⟨f, hf, _⟩ := hwill
      exact absurd hf List.not_mem_nil
    · cases hover
    · cases hover

/-- The job store is unavailable while a transaction that has scheduled a job is rolled back. It is
available again when a second transaction, which has scheduled another job, commits. -/
def outage : List (Move Unit Unit) :=
  [.begin "a" .main, .work ⟨0⟩ (.schedulePersisted "a" ⟨"", ∅⟩ none), .store (.setAvailable false),
    .depart ⟨0⟩ .main .rollback, .advance 0, .store (.setAvailable true), .begin "a" .main,
    .work ⟨1⟩ (.schedulePersisted "a" ⟨"", ∅⟩ none), .depart ⟨1⟩ .main .commit, .advance 1,
    .advance 1]

/-- After the outage, neither job is staged. -/
theorem accounted_iff_outage :
    (playBlank outage).cluster.jobs.isStaged (.drawn 0) = false ∧
      (playBlank outage).cluster.jobs.isStaged (.drawn 1) = false := by
  have hmoves : ∀ m ∈ outage, ∀ r, m ≠ .store (.stage r) := by simp [outage]
  have hfirst := accounted_iff .silent Cluster.atRest_blank hmoves (.drawn 0)
  have hsecond := accounted_iff .silent Cluster.atRest_blank hmoves (.drawn 1)
  constructor
  · exact hfirst.2 (by decide) ((playBlank outage).departures.get ⟨0, by decide⟩)
      (List.get_mem _ _) rfl (List.mem_singleton_self _)
  · exact hsecond.2 (by decide) ((playBlank outage).departures.get ⟨1, by decide⟩)
      (List.get_mem _ _) rfl (List.mem_singleton_self _)

/-- The job store becomes unavailable after a transaction has scheduled a job, and is so when the
transaction commits. -/
def lateOutage : List (Move Unit Unit) :=
  [.begin "a" .main, .work ⟨0⟩ (.schedulePersisted "a" ⟨"", ∅⟩ none), .store (.setAvailable false)]

/-- The commit succeeds, and the transaction has run all its callbacks, but its job is left staged,
and stays so when the store is available again. -/
theorem staged_after_commit :
    ((playBlank lateOutage).cluster.commit .silent .main ⟨0⟩).1 = .ok () ∧
      ((playBlank lateOutage).cluster.commit .silent .main ⟨0⟩).2.jobs.isStaged (.drawn 0) =
        true ∧
      let o := playBlank (lateOutage ++
        [.depart ⟨0⟩ .main .commit, .advance 0, .advance 0, .store (.setAvailable true)])
      o.departures.map (fun d => (d.tx, d.isOver)) = [(⟨0⟩, true)] ∧
        o.deeds ⟨0⟩ = [.job (.drawn 0)] ∧ o.cluster.transaction? ⟨0⟩ = none ∧
        o.cluster.jobs.isStaged (.drawn 0) = true := by
  refine ⟨?_, ?_, ?_, ?_, ?_, ?_⟩
  · rfl
  · rfl
  · rfl
  · rfl
  · rfl
  · rfl

end Interplay

end JobCluster
