import JobCluster.Proofs.Cluster.Ownership
import JobCluster.Proofs.Exchange.CleanUp
import JobCluster.Proofs.Instance.Isolation
/-!
# The end of process instances

When a commit brings a process instance to its end, or deletes it, the listeners hear of it: every
node lets go of what belongs to the instance, and of nothing else. A transaction writes a finished
instance only in the state that it has, or deletes it. So if transactions come one after another,
the listeners hear once of the end of an instance, until they hear that it is gone.

Main results:

- `InstanceStore.exists_event_iff`: the instances that listeners hear of, by the writes;
- `InstanceStore.removed_mem_of_finished_twice`: no end is heard of twice;
- `Cluster.losesOnly_announce`, `Cluster.clear_announce`: what an announcement means to a node;
- `Interplay.Measured.step`: what transactions one after another keep of finished instances;
- `Interplay.cleared_up_play`: what a commit leaves of the instances that it ends, and what
  listeners hear in a history.
-/

namespace JobCluster

variable {η ω : Type}

/-! ## Writes and what is heard of them -/

namespace InstanceWrite

/-- Whether a write brings an instance to its end that had not come to it, or deletes one that is
there. -/
def ends (before : Option ProcessInstance) : InstanceWrite → Bool
  | put p => p.isFinished && !before.any ProcessInstance.isFinished
  | delete _ => before.isSome

/-- Whether a write leaves an instance at its end that has come to it, or deletes it. -/
def keepsEnd (before : Option ProcessInstance) : InstanceWrite → Bool
  | put p => !before.any ProcessInstance.isFinished || p.isFinished
  | delete _ => true

end InstanceWrite

namespace InstanceStore

variable {id : InstanceId} {base : Option ProcessInstance} {w : InstanceWrite}
  {ws vs : List InstanceWrite} {table : Table InstanceId ProcessInstance}
  {state : InstanceState}

/-- Whether one of some writes, made one after another, brings an instance to its end that had not
come to it, or deletes it when it is there. -/
def Ends (id : InstanceId) (base : Option ProcessInstance) (ws : List InstanceWrite) : Prop :=
  ∃ pre w post, ws = pre ++ w :: post ∧ w.id = id ∧ w.ends (seen id base pre) = true

/-- No writes end nothing. -/
theorem not_ends_nil : ¬ Ends id base [] := by
  rintro ⟨pre, w, post, h, _⟩
  simp at h

/-- Writes end an instance with the first one, or later, over what that one leaves. -/
theorem ends_cons : Ends id base (w :: ws) ↔
    (w.id = id ∧ w.ends base = true) ∨ Ends id (if w.id = id then w.result else base) ws := by
  constructor
  · rintro ⟨pre, v, post, h, hid, hends⟩
    cases pre with
    | nil =>
        obtain ⟨rfl, rfl⟩ := List.cons.inj h
        exact .inl ⟨hid, hends⟩
    | cons x pre =>
        obtain ⟨rfl, rfl⟩ := List.cons.inj h
        exact .inr ⟨pre, v, post, rfl, hid, hends⟩
  · rintro (⟨hid, hends⟩ | ⟨pre, v, post, rfl, hid, hends⟩)
    · exact ⟨[], w, ws, rfl, hid, hends⟩
    · exact ⟨w :: pre, v, post, rfl, hid, hends⟩

/-- A write that is applied is announced exactly if it ends its instance. -/
theorem isSome_apply (table : Table InstanceId ProcessInstance) (w : InstanceWrite) :
    (apply table w).1.isSome = w.ends (table.get? w.id) := by
  cases w with
  | put p =>
      simp only [apply, InstanceWrite.ends, InstanceWrite.id]
      cases table.get? p.id with
      | none => cases p.isFinished <;> rfl
      | some q => cases hp : p.isFinished <;> cases hq : q.isFinished <;> simp [hq]
  | delete id =>
      simp only [apply, InstanceWrite.ends, InstanceWrite.id, Table.contains]
      by_cases hsome : (table.get? id).isSome = true <;> simp [hsome]

/-- What is announced is the end of the instance that was written. -/
theorem id_of_apply {event : InstanceEvent} (h : (apply table w).1 = some event) :
    event.id = w.id := by
  cases w with
  | put p =>
      simp only [apply] at h
      split at h <;> cases h
      rfl
  | delete id =>
      simp only [apply] at h
      split at h <;> cases h
      rfl

/-- What is announced of writes is announced write by write. -/
theorem applyAll_cons (w : InstanceWrite) (ws : List InstanceWrite)
    (table : Table InstanceId ProcessInstance) :
    applyAll (w :: ws) table =
      ((apply table w).1.toList ++ (applyAll ws (apply table w).2).1,
        (applyAll ws (apply table w).2).2) :=
  rfl

theorem applyAll_append (ws vs : List InstanceWrite) (table : Table InstanceId ProcessInstance) :
    applyAll (ws ++ vs) table =
      ((applyAll ws table).1 ++ (applyAll vs (applyAll ws table).2).1,
        (applyAll vs (applyAll ws table).2).2) := by
  induction ws generalizing table with
  | nil => rfl
  | cons w rest ih =>
      rw [List.cons_append, applyAll_cons, applyAll_cons, ih, List.append_assoc]

/-- Listeners hear of exactly those instances that the writes bring to their ends or delete. -/
theorem exists_event_iff (ws : List InstanceWrite) (table : Table InstanceId ProcessInstance)
    (id : InstanceId) :
    (∃ event ∈ (applyAll ws table).1, event.id = id) ↔ Ends id (table.get? id) ws := by
  induction ws generalizing table with
  | nil =>
      refine iff_of_false ?_ not_ends_nil
      rintro ⟨event, hevent, _⟩
      exact List.not_mem_nil hevent
  | cons w rest ih =>
      have hfirst : (∃ event ∈ (apply table w).1.toList, event.id = id) ↔
          w.id = id ∧ w.ends (table.get? id) = true := by
        constructor
        · rintro ⟨event, hevent, rfl⟩
          have hsome := Option.mem_toList.mp hevent
          refine ⟨(id_of_apply hsome).symm, ?_⟩
          rw [id_of_apply hsome, ← isSome_apply, hsome]
          rfl
        · rintro ⟨rfl, hends⟩
          rw [← isSome_apply, Option.isSome_iff_exists] at hends
          obtain ⟨event, hevent⟩ := hends
          exact ⟨event, Option.mem_toList.mpr hevent, id_of_apply hevent⟩
      rw [ends_cons, ← hfirst, ← get?_apply, ← ih, applyAll_cons]
      simp only [List.mem_append, or_and_right, exists_or]

/-! ## No end is heard of twice -/

/-- Whether writes, made one after another, leave every instance at its end that has come to it,
until it is deleted. -/
def KeepEnds : List InstanceWrite → Table InstanceId ProcessInstance → Prop
  | [], _ => True
  | w :: rest, table =>
    w.keepsEnd (table.get? w.id) = true ∧ KeepEnds rest (apply table w).2

/-- Two lists of writes keep ends if the first does, and then the second. -/
theorem keepEnds_append :
    KeepEnds (ws ++ vs) table ↔ KeepEnds ws table ∧ KeepEnds vs (applyAll ws table).2 := by
  induction ws generalizing table with
  | nil => simp [KeepEnds, applyAll]
  | cons w rest ih =>
      rw [List.cons_append, KeepEnds, KeepEnds, ih, applyAll_cons, and_assoc]

/-- A write to an instance that has come to its end is heard of if the instance is gone, and else
leaves the instance at its end, unheard of. -/
theorem apply_of_finished (hkeeps : w.keepsEnd (table.get? w.id) = true)
    (hend : (table.get? id).any ProcessInstance.isFinished = true) :
    (apply table w).1 = some (.removed id) ∨
      ((apply table w).2.get? id).any ProcessInstance.isFinished = true ∧
        ∀ state, (apply table w).1 ≠ some (.finished id state) := by
  by_cases hid : w.id = id
  · subst hid
    cases w with
    | put p =>
        right
        have hend' : (table.get? p.id).any ProcessInstance.isFinished = true := hend
        have hfinished : p.isFinished = true := by
          simpa [InstanceWrite.keepsEnd, InstanceWrite.id, hend'] using hkeeps
        refine ⟨?_, ?_⟩
        · rw [get?_apply, if_pos rfl]
          exact hfinished
        · obtain ⟨q, hq, hqfinished⟩ := (Option.any_eq_true _ _).mp hend'
          simp [apply, hq, hqfinished]
    | delete id =>
        left
        have hsome : (table.get? id).isSome = true := by
          obtain ⟨q, hq, _⟩ := (Option.any_eq_true _ _).mp hend
          exact Option.isSome_of_eq_some hq
        simp [apply, Table.contains, hsome, InstanceWrite.id]
  · right
    refine ⟨?_, fun _ hevent => hid (id_of_apply hevent).symm⟩
    rw [get?_apply, if_neg hid]
    exact hend

/-- An instance that is announced as finished is committed as such. -/
theorem finished_of_apply (h : (apply table w).1 = some (.finished id state)) :
    ((apply table w).2.get? id).any ProcessInstance.isFinished = true := by
  cases w with
  | put p =>
      simp only [apply] at h
      split at h
      · next hends =>
        cases h
        have hget : (apply table (.put p)).2.get? p.id = some p :=
          (get?_apply table (.put p) p.id).trans (if_pos rfl)
        rw [hget]
        exact (Bool.and_eq_true_iff.mp hends).1
      · cases h
  | delete other =>
      simp only [apply] at h
      split at h <;> cases h

/-- The end of an instance that has come to its end is heard of only after it is heard that the
instance is gone. -/
theorem removed_mem_of_finished {ys zs : List InstanceEvent} (hkeep : KeepEnds ws table)
    (hend : (table.get? id).any ProcessInstance.isFinished = true)
    (hevents : (applyAll ws table).1 = ys ++ .finished id state :: zs) : .removed id ∈ ys := by
  induction ws generalizing table ys with
  | nil => simp [applyAll] at hevents
  | cons w rest ih =>
      rw [applyAll_cons] at hevents
      rcases apply_of_finished hkeep.1 hend with hremoved | ⟨hstill, hother⟩
      · rw [hremoved, Option.toList_some] at hevents
        cases ys with
        | nil => simp at hevents
        | cons y ys =>
            rw [(List.cons.inj hevents).1]
            exact List.mem_cons_self
      · cases hevent : (apply table w).1 with
        | none =>
            rw [hevent] at hevents
            exact ih hkeep.2 hstill hevents
        | some event =>
            rw [hevent] at hevents hother
            cases ys with
            | nil => exact absurd (congrArg some (List.cons.inj hevents).1) (hother state)
            | cons y ys =>
                exact List.mem_cons_of_mem y (ih hkeep.2 hstill (List.cons.inj hevents).2)

/-- If it is heard twice that an instance has come to its end, it is heard in between that the
instance is gone. -/
theorem removed_mem_of_finished_twice {later : InstanceState} {xs ys zs : List InstanceEvent}
    (hkeep : KeepEnds ws table)
    (hevents : (applyAll ws table).1 =
      xs ++ .finished id state :: (ys ++ .finished id later :: zs)) : .removed id ∈ ys := by
  induction ws generalizing table xs with
  | nil => simp [applyAll] at hevents
  | cons w rest ih =>
      rw [applyAll_cons] at hevents
      cases hevent : (apply table w).1 with
      | none =>
          rw [hevent] at hevents
          exact ih hkeep.2 hevents
      | some event =>
          rw [hevent, Option.toList_some] at hevents
          cases xs with
          | nil =>
              obtain ⟨rfl, hrest⟩ := List.cons.inj hevents
              exact removed_mem_of_finished hkeep.2 (finished_of_apply hevent) hrest
          | cons x xs => exact ih hkeep.2 (List.cons.inj hevents).2

end InstanceStore

/-- Whatever a call writes, it leaves an instance at its end that has come to it, or deletes it. -/
theorem WorkCall.keepsEnd_write? {s : InstanceStore} {tx : TxId} {a : WorkCall η}
    {w : InstanceWrite} (hkeyed : s.Keyed) (h : a.write? tx s = some w) :
    w.keepsEnd (s.view tx w.id) = true := by
  cases w with
  | delete id => rfl
  | put q =>
      rcases write?_put hkeyed h with ⟨_, hnone⟩ | ⟨p, hp, hstate⟩
      · simp [InstanceWrite.keepsEnd, InstanceWrite.id, hnone]
      · simp only [InstanceWrite.keepsEnd, InstanceWrite.id, hp, Option.any_some]
        cases hfinished : p.isFinished with
        | false => rfl
        | true =>
            rw [ProcessInstance.isFinished, hstate hfinished]
            exact hfinished

/-! ## Announcements -/

namespace Cluster

variable {app : Application η ω} {events : List InstanceEvent} {event : InstanceEvent}

/-- No node loses anything but what belongs to the instances that are announced. -/
theorem losesOnly_announce {gone : InstanceId → Prop} (hevents : ∀ event ∈ events, gone event.id)
    (c : Cluster η ω) (n : NodeName) :
    Registry.LosesOnly gone (c.node n).registry ((announce app events c).node n).registry := by
  refine announce_keeps (P := fun d => Registry.LosesOnly gone (c.node n).registry
    (d.node n).registry) app events (fun event hevent d m hd => ?_) (fun _ _ hd => hd) c
    (.refl gone _)
  rw [registry_modifyRegistry]
  by_cases hm : m = n
  · rw [if_pos hm, hm]
    exact hd.trans (Registry.losesOnly_cleanUp (hevents event hevent))
  · rwa [if_neg hm]

/-- Every node that listens has nothing left of the instances that are announced. -/
theorem clear_announce {c : Cluster η ω} {n : NodeName} (hlistens : .cleanUp n ∈ c.listeners)
    (hevent : event ∈ events) :
    Registry.Clear event.id ((announce app events c).node n).registry := by
  have hkeeps : ∀ id (d : Cluster η ω) m, Registry.Clear event.id (d.node n).registry →
      Registry.Clear event.id ((d.modifyRegistry m fun r => r.cleanUp id).node n).registry := by
    intro id d m hd
    rw [registry_modifyRegistry]
    by_cases hm : m = n
    · rw [if_pos hm, hm]
      exact hd.cleanUp id
    · rwa [if_neg hm]
  obtain ⟨before, after, rfl⟩ := List.append_of_mem hevent
  have hlistens' : .cleanUp n ∈ (announce app before c).listeners := by
    rwa [listeners_announce]
  obtain ⟨first, last, hlisteners⟩ := List.append_of_mem hlistens'
  have hannounce : announce app (before ++ event :: after) c =
      announce app after
        ((announce app before c).listeners.foldl (tell app event) (announce app before c)) := by
    rw [announce, announce, announce, List.foldl_append, List.foldl_cons]
  rw [hannounce, hlisteners, List.foldl_append, List.foldl_cons]
  -- the node clears up when it is told, and no one who is told later undoes it
  refine announce_keeps (P := fun d => Registry.Clear event.id (d.node n).registry) app after
    (fun later _ => hkeeps later.id) (fun _ _ hd => hd) _ ?_
  refine tell_keeps (P := fun d => Registry.Clear event.id (d.node n).registry) app event
    (hkeeps event.id) (fun _ _ hd => hd) last _ ?_
  rw [tell, registry_modifyRegistry, if_pos rfl]
  exact Registry.clear_cleanUp _ event.id

end Cluster

namespace Interplay

variable {app : Application η ω} {o : Interplay η ω} {m : Move η ω} {tx : TxId}

/-- What listeners hear when a move is made. -/
def announced (o : Interplay η ω) (m : Move η ω) : List InstanceEvent :=
  match o.event? m with
  | some (.complete tx committed) => (o.cluster.instances.complete tx committed).1
  | some (.call _ _) | none => []

/-- What listeners hear in a history. -/
def reports (app : Application η ω) : Interplay η ω → List (Move η ω) → List InstanceEvent
  | _, [] => []
  | o, m :: rest => o.announced m ++ reports app (o.step app m) rest

/-- A commit announces what its writes end. -/
theorem announced_of_commits (h : o.commits? m = some tx) :
    o.announced m =
      (InstanceStore.applyAll (o.cluster.instances.writes tx) o.cluster.instances.committed).1 := by
  rw [announced, event?_eq_commit.mpr h]
  rfl

/-- A commit applies the writes of its transaction and announces what comes of it. -/
theorem cluster_step_of_commits (app : Application η ω) (h : o.commits? m = some tx) :
    (o.step app m).cluster =
      Cluster.announce app (o.announced m)
        { o.cluster with instances := (o.cluster.instances.complete tx true).2 } := by
  rw [announced, event?_eq_commit.mpr h]
  obtain ⟨i, d, rest, rfl, hd, hround⟩ := commits?_eq_some.mp h
  rw [step_concluding hd hround]
  rfl

/-! ## One transaction after another -/

/-- The transaction that a move begins. -/
def begins? (o : Interplay η ω) : Move η ω → Option TxId
  | .begin n thread => (o.cluster.begin n thread).1.toOption
  | .work _ _ | .depart _ _ _ | .advance _ | .store _ | .registry _ _ | .elsewhere _ => none

/-- Whether a move begins a transaction while another one is open, or has its writes still to be
applied or forgotten. -/
def overlaps (o : Interplay η ω) (m : Move η ω) : Bool :=
  (o.begins? m).isSome &&
    (!o.cluster.transactions.isEmpty || o.departures.any Departure.willApply)

/-- A transaction that begins has the next number. -/
theorem begins?_eq_some (h : o.begins? m = some tx) : tx = ⟨o.cluster.nextTx⟩ := by
  cases m with
  | begin n thread =>
      rcases hbegin : o.cluster.begin n thread with ⟨e | own, c⟩
      · simp [begins?, hbegin, Except.toOption] at h
      · simp only [begins?, hbegin, Except.toOption, Option.some.injEq] at h
        exact h ▸ (Cluster.begin_eq_ok hbegin).number
  | work | depart | advance | store | registry | elsewhere => cases h

/-- The moves apart from those that end transactions may begin one, and leave the others in play. -/
theorem inPlay_step_of_kept (app : Application η ω) (hdepart : ∀ own thread request,
      m = .depart own thread request → o.cluster.transaction? own = none)
    (hadvance : ∀ i, m = .advance i → o.departures[i]? = none) (tx : TxId)
    {Q : Departure η → Prop} :
    (o.step app m).InPlay tx (fun _ => True) Q ↔
      o.InPlay tx (fun _ => True) Q ∨ o.begins? m = some tx := by
  cases m with
  | begin n thread =>
      simp only [step, begins?]
      rcases hbegin : o.cluster.begin n thread with ⟨f | own, c⟩
      · have htransactions := (Cluster.begin_refused hbegin).2
        unfold InPlay Cluster.transaction?
        simp only [htransactions]
        simp [Except.toOption]
      · obtain ⟨t, _, htransaction⟩ := (Cluster.begin_eq_ok hbegin).transaction
        unfold InPlay
        simp only [htransaction]
        by_cases htx : tx = own
        · simp [htx, Except.toOption]
        · simp [htx, Ne.symm htx, Except.toOption]
  | work own a =>
      simp only [step, begins?]
      cases ht : o.cluster.transaction? own with
      | none => simp
      | some t =>
          have heffect := a.effect_perform own o.cluster
          unfold InPlay
          by_cases htx : tx = own
          · obtain ⟨t', ht', _⟩ := heffect.own ht
            simp [htx, ht, ht']
          · simp [heffect.others htx]
  | depart own thread request => simp [step, begins?, hdepart own thread request rfl]
  | advance i => simp [step, begins?, hadvance i rfl]
  | store a | registry n a =>
      simp [step, begins?, InPlay, Cluster.transaction?, Cluster.modifyRegistry]
  | elsewhere what =>
      simp [step, begins?, InPlay, Cluster.transaction?, what.transactions]

/-- A transaction in play after a move was so before, or the move begins it, if departures do not
come by the property on their way. -/
theorem inPlay_of_step (ho : Orderly o) {Q : Departure η → Prop}
    (hnext : ∀ d : Departure η, Q (d.moveTo (d.next app o.cluster).1) → Q d)
    (h : (o.step app m).InPlay tx (fun _ => True) Q) :
    o.InPlay tx (fun _ => True) Q ∨ o.begins? m = some tx := by
  cases m with
  | depart own thread request =>
      cases ht : o.cluster.transaction? own with
      | none =>
          simp only [step, ht] at h
          exact .inl h
      | some t =>
          simp only [step, ht] at h
          rw [ho.inPlay_depart ht (Departure.transactions_first ..) rfl] at h
          split at h
          · next htx => exact .inl (htx ▸ (ho.inPlay_of_open ht).mpr trivial)
          · exact .inl h
  | advance i =>
      cases hd : o.departures[i]? with
      | none =>
          simp only [step, hd] at h
          exact .inl h
      | some d =>
          simp only [step, hd] at h
          rw [ho.inPlay_moveTo hd (Departure.transactions_next app d o.cluster)] at h
          split at h
          · next htx =>
            have hin := List.mem_of_getElem? hd
            exact .inl (htx ▸ (ho.inPlay_of_departure hin).mpr (hnext d h))
          · exact .inl h
  | begin n thread | work own a | store a | registry n a | elsewhere what =>
      exact (inPlay_step_of_kept app (by simp) (by simp) tx).mp h

/-- A departure that has its writes to apply after a step had them to apply before. -/
theorem willApply_of_next (app : Application η ω) (c : Cluster η ω) {d : Departure η}
    (h : (d.moveTo (d.next app c).1).willApply = true) : d.willApply = true := by
  unfold Departure.willApply at h ⊢
  cases hround : d.round with
  | preparing rest => rfl
  | concluding committed rest =>
      cases rest with
      | nil => simp [Departure.next, hround] at h
      | cons callback rest =>
          simp only [Departure.next, hround, Departure.round_moveTo] at h
          exact (List.any_cons ..).trans (Bool.or_eq_true_iff.mpr (.inr h))

/-- A transaction is unsettled if it is in play, with its writes to apply once it departs. -/
theorem isUnsettled_iff :
    o.IsUnsettled tx ↔ o.InPlay tx (fun _ => True) fun d => d.willApply = true := by
  simp [IsUnsettled, InPlay]

/-- A transaction that is unsettled after a move was so before, or the move begins it. -/
theorem unsettled_step (ho : Orderly o) (htx : (o.step app m).IsUnsettled tx) :
    o.IsUnsettled tx ∨ o.begins? m = some tx := by
  rw [isUnsettled_iff] at htx ⊢
  exact inPlay_of_step ho (fun _ => willApply_of_next app o.cluster) htx

/-- A transaction is unsettled when its writes are applied or forgotten. -/
theorem unsettled_of_event {committed : Bool} (ho : Orderly o)
    (h : o.event? m = some (.complete tx committed)) : o.IsUnsettled tx := by
  cases m with
  | advance i =>
      simp only [event?] at h
      split at h
      · next d phase own hcarries =>
        simp only [Option.some.injEq, StoreEvent.complete.injEq] at h
        obtain ⟨rfl, _⟩ := h
        obtain ⟨j, _, hd, hupcoming⟩ := carries?_eq_some.mp hcarries
        have hin := List.mem_of_getElem? hd
        right
        unfold Departure.upcoming? at hupcoming
        split at hupcoming
        · next hround =>
          cases hupcoming
          refine ⟨d, hin, (ho.applyWrites_own hin (ho.mem_before hin hround)).symm, ?_⟩
          rw [Departure.willApply, hround]
        · next hround =>
          cases hupcoming
          refine ⟨d, hin, (ho.applyWrites_own hin (ho.mem_after hin hround)).symm, ?_⟩
          rw [Departure.willApply, hround]
          rfl
        · cases hupcoming
        · cases hupcoming
      · cases h
  | work own a =>
      simp [event?] at h
  | begin | depart | store | registry | elsewhere => cases h

/-- How transactions that come one after another agree with the finished instances: no two of them
are unsettled, and what one of them has written leaves instances at their ends. -/
structure Measured (o : Interplay η ω) : Prop where
  alone : ∀ tx other, o.IsUnsettled tx → o.IsUnsettled other → tx = other
  keepEnds : ∀ tx, o.IsUnsettled tx →
    InstanceStore.KeepEnds (o.cluster.instances.writes tx) o.cluster.instances.committed

namespace Measured

/-- Nothing is unsettled if nothing is open. -/
theorem start {c : Cluster η ω} (hc : c.AtRest) : Measured (⟨c, [], []⟩ : Interplay η ω) where
  alone := by
    rintro tx other (⟨t, ht⟩ | ⟨d, hd, _⟩)
    · rw [hc.transactions] at ht
      cases ht
    · exact absurd hd List.not_mem_nil
  keepEnds tx _ := by
    rw [hc.writes]
    trivial

/-- As long as transactions do not overlap, there is one that is not settled at most. -/
theorem alone_step (h : Measured o) (ho : Orderly o) (hoverlaps : o.overlaps m = false)
    {other : TxId} (htx : (o.step app m).IsUnsettled tx)
    (hother : (o.step app m).IsUnsettled other) : tx = other := by
  cases hbegins : o.begins? m with
  | none =>
      have hbefore : ∀ tx, (o.step app m).IsUnsettled tx → o.IsUnsettled tx := fun tx htx =>
        (unsettled_step ho htx).resolve_right (by simp [hbegins])
      exact h.alone tx other (hbefore tx htx) (hbefore other hother)
  | some new =>
      have hsettled : ∀ tx, ¬ o.IsUnsettled tx := by
        simp only [overlaps, hbegins, Option.isSome_some, Bool.true_and, Bool.or_eq_false_iff,
          Bool.not_eq_false', List.any_eq_false] at hoverlaps
        rintro tx (⟨t, ht⟩ | ⟨d, hd, _, hwill⟩)
        · have hmem := (o.cluster.transactions.mem_entries_iff tx t).mpr ht
          rw [List.isEmpty_iff.mp hoverlaps.1] at hmem
          exact List.not_mem_nil hmem
        · exact hoverlaps.2 d hd hwill
      have hnew : ∀ tx, (o.step app m).IsUnsettled tx → tx = new := fun tx htx =>
        Option.some.inj (((unsettled_step ho htx).resolve_left (hsettled tx)).symm.trans hbegins)
      rw [hnew tx htx, hnew other hother]

/-- What a transaction writes next leaves instances at their ends in its draft. -/
theorem keepEnds_call {a : WorkCall η} (hdrafted : Drafted o)
    (hkeep : InstanceStore.KeepEnds (o.cluster.instances.writes tx) o.cluster.instances.committed)
    {w : InstanceWrite} (hwrite : a.write? tx o.cluster.instances = some w) :
    InstanceStore.KeepEnds (o.cluster.instances.writes tx ++ [w])
      o.cluster.instances.committed := by
  have hkeeps := WorkCall.keepsEnd_write? hdrafted.keyed hwrite
  rw [InstanceStore.view_eq_seen, InstanceStore.get?, ← InstanceStore.get?_applyAll] at hkeeps
  exact InstanceStore.keepEnds_append.mpr ⟨hkeep, hkeeps, trivial⟩

/-- A transaction that begins has written nothing. -/
theorem writes_of_begins (ho : Orderly o) (hdrafted : Drafted o) (h : o.begins? m = some tx) :
    o.cluster.instances.writes tx = [] := by
  have hnumber : o.cluster.nextTx ≤ tx.serial :=
    Nat.le_of_eq (congrArg TxId.serial (begins?_eq_some h)).symm
  rcases hdrafted.drafts tx with hsame | ⟨hnil, _⟩
  · rw [hsame, writes, ho.entries_of_number hnumber]
    rfl
  · exact hnil

/-- The transactions agree with the finished instances after every move that begins none that
overlaps with another one. -/
theorem step (h : Measured o) (ho : Orderly o) (hdrafted : Drafted o)
    (hoverlaps : o.overlaps m = false) : Measured (o.step app m) := by
  refine ⟨fun tx other => h.alone_step ho hoverlaps, fun tx htx => ?_⟩
  rw [instances_step app o m]
  rcases unsettled_step ho htx with hbefore | hbegins
  · have hkeep := h.keepEnds tx hbefore
    cases hevent : o.event? m with
    | none => exact hkeep
    | some event =>
        simp only [Option.toList_some, List.foldl_cons, List.foldl_nil]
        cases event with
        | call own a =>
            simp only [StoreEvent.apply]
            split
            · next w hwrite =>
              rw [InstanceStore.writes_stage]
              split
              · next hown => exact keepEnds_call hdrafted (hown ▸ hkeep) hwrite
              · exact hkeep
            · exact hkeep
        | complete own committed =>
            -- the only transaction that is unsettled has nothing left to be applied
            have hown : tx = own := h.alone tx own hbefore (unsettled_of_event ho hevent)
            rw [StoreEvent.apply, InstanceStore.writes_complete, if_pos hown]
            trivial
  · have hevent : o.event? m = none := by
      cases m with
      | begin n thread => rfl
      | work | depart | advance | store | registry | elsewhere => cases hbegins
    rw [hevent, Option.toList_none, List.foldl_nil, writes_of_begins ho hdrafted hbegins]
    trivial

/-- What a move makes of the committed instances, and what listeners hear of it, comes of writes
that leave instances at their ends. -/
theorem exists_keepEnds_step (h : Measured o) (ho : Orderly o) (app : Application η ω)
    (m : Move η ω) :
    ∃ ws, InstanceStore.KeepEnds ws o.cluster.instances.committed ∧
      InstanceStore.applyAll ws o.cluster.instances.committed =
        (o.announced m, (o.step app m).cluster.instances.committed) := by
  rw [instances_step app o m, announced]
  cases hevent : o.event? m with
  | none => exact ⟨[], trivial, rfl⟩
  | some event =>
      simp only [Option.toList_some, List.foldl_cons, List.foldl_nil]
      cases event with
      | call own a =>
          refine ⟨[], trivial, ?_⟩
          simp only [StoreEvent.apply]
          split <;> rfl
      | complete own committed =>
          cases committed with
          | false => exact ⟨[], trivial, rfl⟩
          | true => exact ⟨_, h.keepEnds own (unsettled_of_event ho hevent), rfl⟩

/-- What listeners hear in a history in which transactions come one after another comes of writes
that leave instances at their ends. -/
theorem exists_keepEnds (h : Measured o) (ho : Orderly o) (hdrafted : Drafted o)
    {moves : List (Move η ω)}
    (hoverlaps : Throughout app (fun o m => o.overlaps m = false) o moves) :
    ∃ ws, InstanceStore.KeepEnds ws o.cluster.instances.committed ∧
      (InstanceStore.applyAll ws o.cluster.instances.committed).1 = o.reports app moves := by
  induction moves generalizing o with
  | nil => exact ⟨[], trivial, rfl⟩
  | cons m rest ih =>
      obtain ⟨ws, hkeep, happly⟩ := h.exists_keepEnds_step ho app m
      obtain ⟨vs, hkeepRest, hreports⟩ :=
        ih (h.step ho hdrafted hoverlaps.1) (ho.step m) (hdrafted.step ho m) hoverlaps.2
      refine ⟨ws ++ vs, InstanceStore.keepEnds_append.mpr ⟨hkeep, ?_⟩, ?_⟩
      · rw [happly]
        exact hkeepRest
      · rw [InstanceStore.applyAll_append, happly, reports, ← hreports]

end Measured

/-! ## The end of instances -/

/-- In a history of any number of overlapping transactions, every commit announces what its
transaction has written. Once it is through, no node that listens holds a route or a registered
exchange of an instance that the transaction has brought to its end or deleted; and on every node
what belongs to other instances, or to none, is what it was.

If no transaction begins while another one is open or has its writes still to be applied or
forgotten, listeners hear once that an instance has come to its end, until they hear that it is
gone. -/
theorem cleared_up_play (app : Application η ω) {c : Cluster η ω} (hc : c.AtRest)
    (hstaged : ∀ tx, c.instances.isOpen tx = false) (moves : List (Move η ω)) :
    let start : Interplay η ω := ⟨c, [], []⟩
    let o := start.play app moves
    (∀ m tx, o.commits? m = some tx →
      let ended := fun id => InstanceStore.Ends id (o.instance? id) (o.writes tx)
      let p := o.step app m
      p.cluster = Cluster.announce app (o.announced m)
          { o.cluster with instances := (o.cluster.instances.complete tx true).2 } ∧
        ∀ n, Registry.LosesOnly ended (o.cluster.node n).registry (p.cluster.node n).registry ∧
          (.cleanUp n ∈ o.cluster.listeners → ∀ id, ended id →
            Registry.Clear id (p.cluster.node n).registry)) ∧
    (Throughout app (fun o m => o.overlaps m = false) start moves →
      ∀ id state later xs ys zs, start.reports app moves =
        xs ++ .finished id state :: (ys ++ .finished id later :: zs) → .removed id ∈ ys) := by
  intro start o
  have hstart : Orderly start := .start hc
  have hdrafted : Drafted start := .start hc
  have hpledged : Pledged o := (Pledged.start hstaged).play hstart hdrafted moves
  have ho : Orderly o := .play hc moves
  refine ⟨fun m tx hcommits => ?_, fun hoverlaps id state later xs ys zs hreports => ?_⟩
  · intro ended p
    have hstep := cluster_step_of_commits app hcommits
    have hunsettled : o.IsUnsettled tx :=
      unsettled_of_event ho (event?_eq_commit.mpr hcommits)
    have hwrites : o.cluster.instances.writes tx = o.writes tx :=
      hpledged.writes_of_unsettled (.play hc moves) hunsettled
    have hannounced : ∀ id, (∃ event ∈ o.announced m, event.id = id) ↔ ended id := by
      intro id
      rw [announced_of_commits hcommits, hwrites]
      exact InstanceStore.exists_event_iff _ _ id
    refine ⟨hstep, fun n => ⟨?_, fun hlistens id hended => ?_⟩⟩
    · show Registry.LosesOnly ended (o.cluster.node n).registry
        ((o.step app m).cluster.node n).registry
      rw [hstep]
      exact Cluster.losesOnly_announce
        (fun event hevent => (hannounced event.id).mp ⟨event, hevent, rfl⟩)
        { o.cluster with instances := (o.cluster.instances.complete tx true).2 } n
    · show Registry.Clear id ((o.step app m).cluster.node n).registry
      obtain ⟨event, hevent, rfl⟩ := (hannounced id).mpr hended
      rw [hstep]
      exact Cluster.clear_announce hlistens hevent
  · obtain ⟨ws, hkeep, happly⟩ := (Measured.start hc).exists_keepEnds hstart hdrafted hoverlaps
    exact InstanceStore.removed_mem_of_finished_twice hkeep (happly.trans hreports)

/-- A cluster of two nodes that listen, in which nothing has happened. -/
def attentive : Cluster Unit Unit :=
  { Cluster.blank with listeners := [.cleanUp "a", .cleanUp "b"] }

theorem atRest_attentive : attentive.AtRest where
  transactions _ := rfl
  writes _ := rfl
  instances _ _ h := nomatch h
  jobs _ _ h := nomatch h
  registries _ _ _ h := nomatch h

/-- Makes moves in a cluster of two nodes that listen. -/
def playAttentive (moves : List (Move Unit Unit)) : Interplay Unit Unit :=
  (⟨attentive, [], []⟩ : Interplay Unit Unit).play .silent moves

/-- Binds an exchange to the sample instance. -/
def bindToSample : Amendment where
  change e := { e with boundTo := some sample.id }
  id _ := rfl
  detached _ := rfl

/-- A transaction creates an instance on one node and two exchanges on the other one, the first of
which is then bound to the instance. A second transaction brings the instance to its end, deletes it
and creates it again as one that has come to its end, and is about to apply this. -/
def relived : List (Move Unit Unit) :=
  [.begin "a" .main, .work ⟨0⟩ (.createInstance sample),
    .work ⟨0⟩ (.createExchange "b" ⟨"x"⟩ .myRole), .work ⟨0⟩ (.createExchange "b" ⟨"y"⟩ .myRole),
    .depart ⟨0⟩ .main .commit, .advance 0, .advance 0, .registry "b" (.amend 0 bindToSample),
    .begin "a" .main, .work ⟨1⟩ (.setInstanceState sample.id .completedOk 1),
    .work ⟨1⟩ (.deleteInstance sample.id),
    .work ⟨1⟩ (.createInstance (sample.transition .completedOk 2)),
    .depart ⟨1⟩ .main .commit, .advance 1]

/-- The first exchange is gone and the other one is still there, and between the two ends of the
instance listeners hear that it is gone. -/
theorem cleared_up_play_relived :
    (playAttentive relived).commits? (.advance 1) = some ⟨1⟩ ∧
      (let r := (((playAttentive relived).step .silent (.advance 1)).cluster.node "b").registry
      r.Clear sample.id ∧ r.slots.get? ⟨"y"⟩ = some 1) ∧
      (⟨attentive, [], []⟩ : Interplay Unit Unit).reports .silent (relived ++ [.advance 1]) =
        [.finished sample.id .completedOk, .removed sample.id, .finished sample.id .completedOk] ∧
      InstanceEvent.removed sample.id ∈ [InstanceEvent.removed sample.id] := by
  have hcommits : (playAttentive relived).commits? (.advance 1) = some ⟨1⟩ := by decide +kernel
  have hwrites : (playAttentive relived).writes ⟨1⟩ =
      [.put (sample.transition .completedOk 1), .delete sample.id,
        .put (sample.transition .completedOk 2)] := by
    decide +kernel
  have hinstance : (playAttentive relived).instance? sample.id = some sample := by decide +kernel
  have hended : InstanceStore.Ends sample.id ((playAttentive relived).instance? sample.id)
      ((playAttentive relived).writes ⟨1⟩) := by
    rw [hwrites, hinstance]
    exact ⟨[], _, _, rfl, rfl, rfl⟩
  have hslot : ((playAttentive relived).cluster.node "b").registry.slots.get? ⟨"y"⟩ = some 1 := by
    decide +kernel
  have hexchange : ((playAttentive relived).cluster.node "b").registry.exchange? 1 =
      some { id := ⟨"y"⟩, direction := .myRole, createdAt := 0 } := by
    decide +kernel
  have hreports : (⟨attentive, [], []⟩ : Interplay Unit Unit).reports .silent
      (relived ++ [.advance 1]) = [.finished sample.id .completedOk, .removed sample.id,
        .finished sample.id .completedOk] := by
    decide +kernel
  obtain ⟨hcommit, _⟩ := cleared_up_play .silent atRest_attentive (fun _ => rfl) relived
  obtain ⟨_, hnodes⟩ := hcommit (.advance 1) ⟨1⟩ hcommits
  obtain ⟨_, hreport⟩ :=
    cleared_up_play .silent atRest_attentive (fun _ => rfl) (relived ++ [.advance 1])
  have hlistens : .cleanUp "b" ∈ (playAttentive relived).cluster.listeners := by decide +kernel
  refine ⟨hcommits, ⟨(hnodes "b").2 hlistens sample.id hended, ?_⟩, hreports, ?_⟩
  · exact (hnodes "b").1.keptSlots ⟨"y"⟩ 1 _ hslot hexchange fun ⟨id, hid, _⟩ => nomatch hid
  · exact hreport (by decide +kernel) sample.id .completedOk .completedOk []
      [.removed sample.id] [] hreports

end Interplay

end JobCluster
