import JobCluster.Proofs.Cluster.Effect
import JobCluster.Proofs.Exchange.Standing
import JobCluster.Proofs.Transaction.Course
/-!
# Overlapping transactions

Any number of transactions may be under way at once. Between two calls of one of them, and between
two of the callbacks that run at its end, anything else may happen: other transactions begin, work
and come to their ends, the job store and the registries are called, and the rest of the cluster
goes on. A history is a sequence of such moves. A log keeps every call that a transaction has made,
with the cluster that it found.

Main results:

- `Interplay.step`, `Interplay.play`: the moves, one at a time and one after another;
- `Interplay.outcome_step`: what a move comes to;
- `Cluster.carryOut_instances`, `Cluster.carryOut_registry`: what a callback means to the process
  instances and to the exchanges.
-/

namespace JobCluster

variable {η ω : Type}

/-! ## On the way out -/

/-- Where a transaction on its way out of the cluster is, between two of its callbacks. -/
inductive Round (η : Type)
  /-- The callbacks before the commit are running. -/
  | preparing (rest : List (Callback η))
  /-- The callbacks after the end are running. -/
  | concluding (committed : Bool) (rest : List (Callback η))

/-- A transaction on its way out of the cluster, under the identifier that it was open under. -/
structure Departure (η : Type) where
  tx : TxId
  thread : Thread
  transaction : Transaction (Callback η)
  round : Round η

namespace Departure

/-- The departure in a later round. -/
def moveTo (d : Departure η) (round : Round η) : Departure η := { d with round }

@[simp]
theorem tx_moveTo (d : Departure η) (round : Round η) : (d.moveTo round).tx = d.tx :=
  rfl

@[simp]
theorem transaction_moveTo (d : Departure η) (round : Round η) :
    (d.moveTo round).transaction = d.transaction :=
  rfl

@[simp]
theorem round_moveTo (d : Departure η) (round : Round η) : (d.moveTo round).round = round :=
  rfl

/-- Whether the transaction has run all its callbacks. -/
def isOver (d : Departure η) : Bool :=
  match d.round with
  | .concluding _ [] => true
  | .preparing _ | .concluding _ (_ :: _) => false

/-- The callback that is to run next, with its round. -/
def upcoming? (d : Departure η) : Option (Phase × Callback η) :=
  match d.round with
  | .preparing (callback :: _) => some (.before, callback)
  | .concluding committed (callback :: _) => some (.after committed, callback)
  | .preparing [] | .concluding _ [] => none

/-- Where an open transaction is when its end is called for. It gets ready to commit, if it can;
otherwise the resource manager is told and the thread is freed. -/
def first (app : Application η ω) (thread : Thread) (tx : TxId) (request : Transaction.Request)
    (t : Transaction (Callback η)) (c : Cluster η ω) : Round η × Cluster η ω :=
  let w := Cluster.surroundings app thread
  let c := { c with transactions := c.transactions.erase tx }
  if t.reachesCommit request then (.preparing (t.callbacks .before), c)
  else
    (.concluding false (t.callbacks (.after false)), w.leave t (w.rollbackResource t.id c).2)

/-- The next step of a transaction on its way out: a callback runs, or the resource manager decides
whether the transaction commits. -/
def next (app : Application η ω) (d : Departure η) (c : Cluster η ω) : Round η × Cluster η ω :=
  let w := Cluster.surroundings app d.thread
  let t := d.transaction
  match d.round with
  | .preparing (callback :: rest) => (.preparing rest, c.carryOut app d.thread .before callback)
  | .preparing [] =>
    match w.commitResource t.id c with
    | (.ok (), c) => (.concluding true (t.callbacks (.after true)), w.leave t c)
    | (.error _, c) =>
      (.concluding false (t.callbacks (.after false)), w.leave t (w.rollbackResource t.id c).2)
  | .concluding committed (callback :: rest) =>
    (.concluding committed rest, c.carryOut app d.thread (.after committed) callback)
  | .concluding committed [] => (.concluding committed [], c)

end Departure

/-! ## Moves -/

/-- A call that a transaction has made, with the cluster that it found. -/
structure WorkEntry (η ω : Type) where
  tx : TxId
  call : WorkCall η
  found : Cluster η ω

namespace WorkEntry

/-- What the call was answered with. -/
def answer (e : WorkEntry η ω) : WorkAnswer := (e.call.perform e.tx e.found).1

/-- What the call brought into the world. -/
def deeds (e : WorkEntry η ω) : List Deed := e.call.deeds e.answer

/-- The lasting callbacks that the call registered with its transaction. -/
def registered (e : WorkEntry η ω) : List (Synchronizer (Callback η)) :=
  (e.call.registers e.tx e.found e.answer).filter Synchronizer.lasts

end WorkEntry

/-- What happens in a cluster apart from jobs, process instances, exchanges and transactions. -/
structure Elsewhere (η ω : Type) where
  change : Cluster η ω → Cluster η ω
  jobs : ∀ c, (change c).jobs = c.jobs
  instances : ∀ c, (change c).instances = c.instances
  transactions : ∀ c, (change c).transactions = c.transactions
  registry : ∀ c n, ((change c).node n).registry = (c.node n).registry
  nodeId : ∀ c n, (change c).nodeId n = c.nodeId n
  nextTx : ∀ c, (change c).nextTx = c.nextTx
  nextJob : ∀ c, (change c).nextJob = c.nextJob

/-- A move in a history of overlapping transactions. -/
inductive Move (η ω : Type)
  | begin (node : NodeName) (thread : Thread)
  /-- An open transaction makes a call. -/
  | work (tx : TxId) (call : WorkCall η)
  /-- The end of an open transaction is called for. -/
  | depart (tx : TxId) (thread : Thread) (request : Transaction.Request)
  /-- A transaction on its way out takes its next step. -/
  | advance (departure : Nat)
  /-- A call on the job store that is part of no transaction. -/
  | store (call : StoreCall)
  /-- Something happens to the registry of a node apart from transactions. -/
  | registry (node : NodeName) (change : RegistryChange)
  | elsewhere (what : Elsewhere η ω)

/-- A cluster with the transactions on their way out, in the order in which their ends were called
for, and the log. -/
structure Interplay (η ω : Type) where
  cluster : Cluster η ω
  departures : List (Departure η) := []
  log : List (WorkEntry η ω) := []

namespace Interplay

/-- Makes a move. A move that is not possible changes nothing. -/
def step (app : Application η ω) (o : Interplay η ω) : Move η ω → Interplay η ω
  | .begin n thread => { o with cluster := (o.cluster.begin n thread).2 }
  | .work tx a =>
    match o.cluster.transaction? tx with
    | none => o
    | some _ =>
      { o with
        cluster := (a.perform tx o.cluster).2
        log := o.log ++ [⟨tx, a, o.cluster⟩] }
  | .depart tx thread request =>
    match o.cluster.transaction? tx with
    | none => o
    | some t =>
      let x := Departure.first app thread tx request t o.cluster
      { o with cluster := x.2, departures := o.departures ++ [⟨tx, thread, t, x.1⟩] }
  | .advance i =>
    match o.departures[i]? with
    | none => o
    | some d =>
      let x := d.next app o.cluster
      { o with cluster := x.2, departures := o.departures.set i (d.moveTo x.1) }
  | .store a => { o with cluster := { o.cluster with jobs := a.apply o.cluster.jobs } }
  | .registry n a => { o with cluster := o.cluster.modifyRegistry n fun r => a.apply r }
  | .elsewhere what => { o with cluster := what.change o.cluster }

/-- The callback that a move runs, with the departure and the round. -/
def carries? (o : Interplay η ω) : Move η ω → Option (Departure η × Phase × Callback η)
  | .advance i => do
    let d ← o.departures[i]?
    let x ← d.upcoming?
    return (d, x)
  | .begin _ _ | .work _ _ | .depart _ _ _ | .store _ | .registry _ _ | .elsewhere _ => none

/-- Makes moves one after another. -/
def play (app : Application η ω) (o : Interplay η ω) (moves : List (Move η ω)) : Interplay η ω :=
  moves.foldl (step app) o

/-- Whether every move of a history has a property, at the moment at which it is made. -/
def Throughout (app : Application η ω) (P : Interplay η ω → Move η ω → Prop) :
    Interplay η ω → List (Move η ω) → Prop
  | _, [] => True
  | o, m :: rest => P o m ∧ Throughout app P (o.step app m) rest

instance decidableThroughout (app : Application η ω) (P : Interplay η ω → Move η ω → Prop)
    [∀ o m, Decidable (P o m)] (o : Interplay η ω) (moves : List (Move η ω)) :
    Decidable (Throughout app P o moves) :=
  match moves with
  | [] => .isTrue trivial
  | m :: rest =>
    have := decidableThroughout app P (o.step app m) rest
    inferInstanceAs (Decidable (P o m ∧ Throughout app P (o.step app m) rest))

variable {app : Application η ω}

/-- A history begins with its first move. -/
theorem play_cons (o : Interplay η ω) (m : Move η ω) (rest : List (Move η ω)) :
    o.play app (m :: rest) = (o.step app m).play app rest :=
  rfl

/-- A longer history goes on where the shorter one has ended. -/
theorem play_append (o : Interplay η ω) (moves more : List (Move η ω)) :
    o.play app (moves ++ more) = (o.play app moves).play app more :=
  List.foldl_append

/-- What every move keeps is kept by a history. -/
theorem play_induction {P : Interplay η ω → Prop} (hstep : ∀ o m, P o → P (o.step app m))
    {o : Interplay η ω} (h : P o) (moves : List (Move η ω)) : P (o.play app moves) := by
  induction moves generalizing o with
  | nil => exact h
  | cons m rest ih => exact ih (hstep o m h)

/-- A move runs a callback exactly if it lets a departure advance that has one to run. -/
theorem carries?_eq_some {o : Interplay η ω} {m : Move η ω} {d : Departure η} {phase : Phase}
    {callback : Callback η} :
    o.carries? m = some (d, phase, callback) ↔
      ∃ i, m = .advance i ∧ o.departures[i]? = some d ∧ d.upcoming? = some (phase, callback) := by
  cases m with
  | advance i =>
      simp only [carries?, Option.bind_eq_bind, Option.bind_eq_some_iff]
      constructor
      · rintro ⟨d', hd, x, hx, heq⟩
        cases heq
        exact ⟨i, rfl, hd, hx⟩
      · rintro ⟨j, hj, hd, hx⟩
        cases hj
        exact ⟨d, hd, _, hx, rfl⟩
  | begin n thread | work tx a | depart tx thread request | store a | registry n a
  | elsewhere what => simp [carries?]

/-- A move runs a callback after the end exactly if it lets a departure advance whose next callback
is that one. -/
theorem carries?_after_eq_some {o : Interplay η ω} {m : Move η ω} {d : Departure η}
    {committed : Bool} {callback : Callback η} :
    o.carries? m = some (d, .after committed, callback) ↔
      ∃ i rest, m = .advance i ∧ o.departures[i]? = some d ∧
        d.round = .concluding committed (callback :: rest) := by
  rw [carries?_eq_some]
  constructor
  · rintro ⟨i, hm, hd, hup⟩
    unfold Departure.upcoming? at hup
    split at hup
    · cases hup
    · next committed callback rest hround =>
      cases hup
      exact ⟨i, rest, hm, hd, hround⟩
    · cases hup
    · cases hup
  · rintro ⟨i, rest, hm, hd, hround⟩
    exact ⟨i, hm, hd, by simp [Departure.upcoming?, hround]⟩

/-- What a move does that lets a departure run a callback after the end. -/
theorem step_concluding {o : Interplay η ω} {i : Nat} {d : Departure η} {committed : Bool}
    {callback : Callback η} {rest : List (Callback η)} (hd : o.departures[i]? = some d)
    (hround : d.round = .concluding committed (callback :: rest)) :
    o.step app (.advance i) = { o with
      cluster := o.cluster.carryOut app d.thread (.after committed) callback
      departures := o.departures.set i (d.moveTo (.concluding committed rest)) } := by
  simp only [step, hd, Departure.next, hround]

/-! ## What transactions have done -/

/-- The calls that a transaction has made. -/
def entries (o : Interplay η ω) (tx : TxId) : List (WorkEntry η ω) :=
  o.log.filter fun e => decide (e.tx = tx)

/-- What a transaction has brought into the world. -/
def deeds (o : Interplay η ω) (tx : TxId) : List Deed := (o.entries tx).flatMap WorkEntry.deeds

/-- The lasting callbacks that the calls of a transaction have registered with it. -/
def registered (o : Interplay η ω) (tx : TxId) : List (Synchronizer (Callback η)) :=
  (o.entries tx).flatMap WorkEntry.registered

/-- The entries of a transaction are those of the log that it has made. -/
theorem mem_entries {o : Interplay η ω} {tx : TxId} {e : WorkEntry η ω} :
    e ∈ o.entries tx ↔ e ∈ o.log ∧ e.tx = tx := by
  simp [entries]

theorem mem_deeds {o : Interplay η ω} {tx : TxId} {x : Deed} :
    x ∈ o.deeds tx ↔ ∃ e ∈ o.log, e.tx = tx ∧ x ∈ e.deeds := by
  simp only [deeds, List.mem_flatMap, mem_entries, and_assoc]

/-- The callbacks of a transaction are those that its entries in the log have registered. -/
theorem mem_registered {o : Interplay η ω} {tx : TxId} {x : Synchronizer (Callback η)} :
    x ∈ o.registered tx ↔ ∃ e ∈ o.log, e.tx = tx ∧ x ∈ e.registered := by
  simp only [registered, List.mem_flatMap, mem_entries, and_assoc]

end Interplay

/-! ## What a callback means to the instances and the exchanges -/

namespace Cluster

/-- Whether nothing has become of what transactions work on. -/
structure Unmoved (c d : Cluster η ω) : Prop where
  jobs : d.jobs = c.jobs
  instances : d.instances = c.instances
  registry : ∀ n, (d.node n).registry = (c.node n).registry
  nextTx : d.nextTx = c.nextTx
  nextJob : d.nextJob = c.nextJob

/-- A cluster has not moved from itself. -/
theorem Unmoved.refl (c : Cluster η ω) : c.Unmoved c :=
  ⟨rfl, rfl, fun _ => rfl, rfl, rfl⟩

/-- What happens elsewhere changes nothing that transactions work on. -/
theorem unmoved_elsewhere (c : Cluster η ω) (what : Elsewhere η ω) : c.Unmoved (what.change c) :=
  ⟨what.jobs c, what.instances c, what.registry c, what.nextTx c, what.nextJob c⟩

/-- A change of a node that leaves its registry alone leaves all registries alone. -/
theorem registry_modifyNode {c : Cluster η ω} {n : NodeName} {f : Node η → Node η}
    (h : (f (c.node n)).registry = (c.node n).registry) (m : NodeName) :
    ((c.modifyNode n f).node m).registry = (c.node m).registry := by
  rw [node_modifyNode]
  by_cases hnm : n = m
  · rw [if_pos hnm, h, hnm]
  · rw [if_neg hnm]

theorem unmoved_modifyNode {c d : Cluster η ω} (h : c.Unmoved d) {n : NodeName}
    {f : Node η → Node η} (hf : (f (d.node n)).registry = (d.node n).registry) :
    c.Unmoved (d.modifyNode n f) :=
  ⟨h.jobs, h.instances, fun m => (registry_modifyNode hf m).trans (h.registry m), h.nextTx,
    h.nextJob⟩

/-- The resource manager is told of an end, and the thread is freed. -/
theorem unmoved_leave {c d : Cluster η ω} (h : c.Unmoved d) (app : Application η ω)
    (thread : Thread) (t : Transaction (Callback η)) (resource : ResourceManager) :
    c.Unmoved ((surroundings app thread).leave t { d with resource }) := by
  have htold : c.Unmoved { d with resource } :=
    ⟨h.jobs, h.instances, h.registry, h.nextTx, h.nextJob⟩
  exact unmoved_modifyNode (f := fun x => { x with manager := x.manager.release t.owner t.id })
    htold rfl

theorem scheduler_modifyNode {c : Cluster η ω} {n : NodeName} {f : Node η → Node η}
    (h : (f (c.node n)).scheduler = (c.node n).scheduler) (m : NodeName) :
    ((c.modifyNode n f).node m).scheduler = (c.node m).scheduler := by
  rw [node_modifyNode]
  by_cases hnm : n = m
  · rw [if_pos hnm, h, hnm]
  · rw [if_neg hnm]

/-- An end that the resource manager is told of queues nothing. -/
theorem scheduler_leave (c : Cluster η ω) (app : Application η ω) (thread : Thread)
    (t : Transaction (Callback η)) (n : NodeName) :
    (((surroundings app thread).leave t c).node n).scheduler = (c.node n).scheduler :=
  scheduler_modifyNode (f := fun x => { x with manager := x.manager.release t.owner t.id }) rfl n

/-- A change of a registry changes that of its own node only. -/
theorem registry_modifyRegistry (c : Cluster η ω) (n m : NodeName) (f : Registry → Registry) :
    ((c.modifyRegistry n f).node m).registry =
      if n = m then f (c.node n).registry else (c.node m).registry := by
  unfold modifyRegistry
  rw [node_modifyNode]
  by_cases hnm : n = m
  · rw [if_pos hnm, if_pos hnm]
  · rw [if_neg hnm, if_neg hnm]

/-- What a callback keeps: whatever depends neither on the stores nor on the nodes nor on the world
outside. -/
theorem carryOut_induction {P : Cluster η ω → Prop} (app : Application η ω)
    (hjobs : ∀ c jobs, P c → P { c with jobs })
    (hinstances : ∀ c instances, P c → P { c with instances })
    (hnode : ∀ c n f, P c → P (c.modifyNode n f)) (houtside : ∀ c f, P c → P (c.modifyOutside f))
    (thread : Thread) (phase : Phase) {c : Cluster η ω} (callback : Callback η) (h : P c) :
    P (c.carryOut app thread phase callback) := by
  have htodo : ∀ c n f, P c → P (modifyTodo c n f) := fun c n f hc =>
    hnode c n (fun x => { x with scheduler := { x.scheduler with todo := f x.scheduler.todo } }) hc
  have hpublished : ∀ c n plan, P c → P (enqueuePublished c n plan) := by
    intro c n plan hc
    unfold enqueuePublished
    exact htodo c n _ hc
  cases callback with
  | publish n plan =>
      simp only [carryOut, runCallback, settleStaged]
      split
      · split
        · exact h
        · split
          · exact hpublished _ n plan (hjobs c _ h)
          · exact hjobs c _ h
      · exact hjobs c _ h
  | drop n j armed =>
      cases armed with
      | false => exact h
      | true =>
          show P (c.dropClaimed n j).2
          rw [c.dropClaimed_snd n j]
          exact hjobs c _ h
  | applyWrites tx =>
      exact announce_induction app (fun c n f => hnode c n _) houtside _ _ (hinstances c _ h)
  | queue n info =>
      show P (c.enqueueVolatile n info)
      exact htodo c n _ h
  | withdraw n j =>
      show P (c.modifyRegistry n fun r => r.rollBack j)
      exact hnode c n _ h
  | custom script => exact h

/-- A callback draws no identifiers for jobs. -/
theorem nextJob_carryOut (app : Application η ω) (thread : Thread) (phase : Phase)
    (c : Cluster η ω) (callback : Callback η) :
    (c.carryOut app thread phase callback).nextJob = c.nextJob :=
  carryOut_induction (P := fun d => d.nextJob = c.nextJob) app (fun _ _ h => h) (fun _ _ h => h)
    (fun _ _ _ h => h) (fun _ _ h => h) thread phase callback rfl

/-- A callback does not change the clock. -/
theorem clock_carryOut (app : Application η ω) (thread : Thread) (phase : Phase)
    (c : Cluster η ω) (callback : Callback η) :
    (c.carryOut app thread phase callback).clock = c.clock :=
  carryOut_induction (P := fun d => d.clock = c.clock) app (fun _ _ h => h) (fun _ _ h => h)
    (fun _ _ _ h => h) (fun _ _ h => h) thread phase callback rfl

/-- A callback ends the writes of a transaction, or leaves the process instances alone. -/
theorem carryOut_instances (app : Application η ω) (thread : Thread) (phase : Phase)
    (c : Cluster η ω) (callback : Callback η) :
    (c.carryOut app thread phase callback).instances =
      match callback with
      | .applyWrites tx => (c.instances.complete tx (followsCommit phase)).2
      | _ => c.instances := by
  cases callback with
  | publish n plan =>
      simp only [carryOut, runCallback, settleStaged]
      split
      · split
        · rfl
        · split <;> rfl
      · rfl
  | drop n j armed =>
      cases armed with
      | false => rfl
      | true =>
          show (c.dropClaimed n j).2.instances = c.instances
          rw [c.dropClaimed_snd n j]
  | applyWrites tx => simp [carryOut, runCallback, completeWrites]
  | queue n info | withdraw n j | custom script => rfl

/-- A property of a registry that a callback can change in no other way than by rolling a creation
back, or by having the nodes clean up. -/
theorem carryOut_registry {P : Registry → Prop} (hrollBack : ∀ r id, P r → P (r.rollBack id))
    (hcleanUp : ∀ r id, P r → P (r.cleanUp id)) (app : Application η ω) (thread : Thread)
    (phase : Phase) (c : Cluster η ω) (callback : Callback η) (n : NodeName)
    (h : P (c.node n).registry) : P ((c.carryOut app thread phase callback).node n).registry := by
  have hmodify : ∀ (d : Cluster η ω) m f, (∀ r, P r → P (f r)) → P (d.node n).registry →
      P ((d.modifyRegistry m f).node n).registry := by
    intro d m f hf hd
    rw [registry_modifyRegistry]
    by_cases hmn : m = n
    · subst hmn
      rw [if_pos rfl]
      exact hf _ hd
    · rwa [if_neg hmn]
  cases callback with
  | publish m plan =>
      have hnode : ((c.settleStaged m plan (followsCommit phase)).2.node n).registry =
          (c.node n).registry := by
        unfold settleStaged
        split
        · split
          · rfl
          · split
            · exact registry_modifyNode rfl n
            · rfl
        · rfl
      exact hnode.symm ▸ h
  | queue m info =>
      have hnode : ((c.enqueueVolatile m info).node n).registry = (c.node n).registry :=
        registry_modifyNode rfl n
      exact hnode.symm ▸ h
  | drop m j armed =>
      cases armed with
      | false => exact h
      | true =>
          have hnode : ((c.dropClaimed m j).2.node n).registry = (c.node n).registry := by
            rw [c.dropClaimed_snd m j]
            rfl
          exact hnode.symm ▸ h
  | applyWrites tx =>
      exact announce_keeps (P := fun d => P (d.node n).registry) app _
        (fun event _ d m hd => hmodify d m _ (fun r hr => hcleanUp r event.id hr) hd)
        (fun _ _ hd => hd) _ h
  | withdraw m id => exact hmodify c m (fun r => r.rollBack id) (fun r hr => hrollBack r id hr) h
  | custom script => exact h

end Cluster

/-! ## What a move comes to -/

namespace Interplay

/-- What a move can come to. -/
inductive Outcome (app : Application η ω) (o : Interplay η ω) :
    Move η ω → Interplay η ω → Prop
  /-- The move is not possible, and runs nothing. -/
  | idle {m : Move η ω} (h : o.carries? m = none) : Outcome app o m o
  | refused (n : NodeName) (thread : Thread) (resource : ResourceManager) :
      Outcome app o (.begin n thread)
        { o with cluster := { o.cluster with nextTx := o.cluster.nextTx + 1, resource } }
  | begun (n : NodeName) (thread : Thread) {tx : TxId} {c : Cluster η ω}
      (h : o.cluster.begin n thread = (.ok tx, c)) :
      Outcome app o (.begin n thread) { o with cluster := c }
  | worked {tx : TxId} (a : WorkCall η) {t : Transaction (Callback η)}
      (ht : o.cluster.transaction? tx = some t) :
      Outcome app o (.work tx a)
        { o with cluster := (a.perform tx o.cluster).2, log := o.log ++ [⟨tx, a, o.cluster⟩] }
  | departed {tx : TxId} (thread : Thread) (request : Transaction.Request)
      {t : Transaction (Callback η)} {round : Round η} {c : Cluster η ω}
      (ht : o.cluster.transaction? tx = some t)
      (hround : round = .preparing (t.callbacks .before) ∨
        round = .concluding false (t.callbacks (.after false)))
      (hc : o.cluster.Unmoved c)
      (htransactions : c.transactions = o.cluster.transactions.erase tx)
      (hscheduler : ∀ n, (c.node n).scheduler = (o.cluster.node n).scheduler) :
      Outcome app o (.depart tx thread request)
        { o with cluster := c, departures := o.departures ++ [⟨tx, thread, t, round⟩] }
  | before (i : Nat) {d : Departure η} {callback : Callback η} {rest : List (Callback η)}
      (hd : o.departures[i]? = some d) (hround : d.round = .preparing (callback :: rest)) :
      Outcome app o (.advance i)
        { o with
          cluster := o.cluster.carryOut app d.thread .before callback
          departures := o.departures.set i (d.moveTo (.preparing rest)) }
  /-- The resource manager commits, or refuses to. -/
  | decided (i : Nat) (committed : Bool) {d : Departure η} {c : Cluster η ω}
      (hd : o.departures[i]? = some d) (hround : d.round = .preparing [])
      (hc : o.cluster.Unmoved c) (htransactions : c.transactions = o.cluster.transactions)
      (hscheduler : ∀ n, (c.node n).scheduler = (o.cluster.node n).scheduler) :
      Outcome app o (.advance i)
        { o with
          cluster := c
          departures := o.departures.set i
            (d.moveTo (.concluding committed (d.transaction.callbacks (.after committed)))) }
  | after (i : Nat) {committed : Bool} {d : Departure η} {callback : Callback η}
      {rest : List (Callback η)} (hd : o.departures[i]? = some d)
      (hround : d.round = .concluding committed (callback :: rest)) :
      Outcome app o (.advance i)
        { o with
          cluster := o.cluster.carryOut app d.thread (.after committed) callback
          departures := o.departures.set i (d.moveTo (.concluding committed rest)) }
  | store (a : StoreCall) :
      Outcome app o (.store a)
        { o with cluster := { o.cluster with jobs := a.apply o.cluster.jobs } }
  | registry (n : NodeName) (a : RegistryChange) :
      Outcome app o (.registry n a)
        { o with cluster := o.cluster.modifyRegistry n fun r => a.apply r }
  | elsewhere (what : Elsewhere η ω) :
      Outcome app o (.elsewhere what) { o with cluster := what.change o.cluster }

/-- A departure that is set to what it is already. -/
theorem set_moveTo_self {o : Interplay η ω} {i : Nat} {d : Departure η}
    (hd : o.departures[i]? = some d) : o.departures.set i (d.moveTo d.round) = o.departures := by
  obtain ⟨hi, rfl⟩ := List.getElem?_eq_some_iff.mp hd
  exact List.set_getElem_self hi

/-- A departure begins with one of the outcomes. -/
theorem outcome_first (app : Application η ω) (o : Interplay η ω) {tx : TxId} (thread : Thread)
    (request : Transaction.Request) {t : Transaction (Callback η)}
    (ht : o.cluster.transaction? tx = some t) :
    Outcome app o (.depart tx thread request)
      { o with
        cluster := (Departure.first app thread tx request t o.cluster).2
        departures := o.departures ++
          [⟨tx, thread, t, (Departure.first app thread tx request t o.cluster).1⟩] } := by
  have herased : o.cluster.Unmoved
      { o.cluster with transactions := o.cluster.transactions.erase tx } :=
    ⟨rfl, rfl, fun _ => rfl, rfl, rfl⟩
  unfold Departure.first
  by_cases hcommit : t.reachesCommit request = true
  · simp only [if_pos hcommit]
    exact .departed thread request ht (.inl rfl) herased rfl fun _ => rfl
  · simp only [if_neg hcommit]
    have hleft := Cluster.unmoved_leave herased app thread t o.cluster.resource.rollback.2
    exact .departed thread request ht (.inr rfl) hleft rfl (Cluster.scheduler_leave _ app thread t)

theorem outcome_next (app : Application η ω) (o : Interplay η ω) {i : Nat} {d : Departure η}
    (hd : o.departures[i]? = some d) :
    Outcome app o (.advance i)
      { o with
        cluster := (d.next app o.cluster).2
        departures := o.departures.set i (d.moveTo (d.next app o.cluster).1) } := by
  have hleave := Cluster.unmoved_leave (.refl o.cluster) app d.thread d.transaction
  have hscheduler := fun resource => Cluster.scheduler_leave { o.cluster with resource } app
    d.thread d.transaction
  unfold Departure.next
  cases hround : d.round with
  | preparing rest =>
      cases rest with
      | cons callback rest => exact .before i hd hround
      | nil =>
          have hcommit : (Cluster.surroundings app d.thread).commitResource d.transaction.id
              o.cluster = ((o.cluster.resource.commit d.transaction.id).1,
                { o.cluster with resource := (o.cluster.resource.commit d.transaction.id).2 }) :=
            rfl
          simp only [hcommit]
          cases (o.cluster.resource.commit d.transaction.id).1 with
          | ok => exact .decided i true hd hround (hleave _) rfl (hscheduler _)
          | error e => exact .decided i false hd hround (hleave _) rfl (hscheduler _)
  | concluding committed rest =>
      cases rest with
      | cons callback rest => exact .after i hd hround
      | nil =>
          simp only [← hround, set_moveTo_self hd]
          exact .idle (by simp [carries?, hd, Departure.upcoming?, hround])

/-- Every move comes to one of the outcomes. -/
theorem outcome_step (app : Application η ω) (o : Interplay η ω) (m : Move η ω) :
    Outcome app o m (o.step app m) := by
  cases m with
  | begin n thread =>
      simp only [step]
      rcases hbegin : o.cluster.begin n thread with ⟨e | tx, c⟩
      · obtain ⟨resource, rfl⟩ := Cluster.begin_eq_error hbegin
        exact .refused n thread resource
      · exact .begun n thread hbegin
  | work tx a =>
      simp only [step]
      cases ht : o.cluster.transaction? tx with
      | none => exact .idle rfl
      | some t => exact .worked a ht
  | depart tx thread request =>
      simp only [step]
      cases ht : o.cluster.transaction? tx with
      | none => exact .idle rfl
      | some t => exact outcome_first app o thread request ht
  | advance i =>
      simp only [step]
      cases hd : o.departures[i]? with
      | none => exact .idle (by simp [carries?, hd])
      | some d => exact outcome_next app o hd
  | store a => exact .store a
  | registry n a => exact .registry n a
  | elsewhere what => exact .elsewhere what

end Interplay

end JobCluster
