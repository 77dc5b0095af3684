import JobCluster.Proofs.Cluster.Apart
/-!
# Work in a transaction

What a unit of work does while its transaction is open: it schedules jobs, creates exchanges, writes
process instances and registers callbacks, in any order and any number, and what it does next may
depend on the answers. Some of these calls bring things into the world, which are kept as deeds.

Main results:

- `Deed.Reversible.apart`, `Deed.Undone.apart`: what happens apart from a unit of work neither makes
  its deeds irreversible nor brings them back;
- `Work.act_bind`: work that is followed by more work.
-/

namespace JobCluster

variable {η ω ν α β : Type}

/-! ## Deeds -/

/-- What a unit of work brings into the world. -/
inductive Deed
  /-- A scheduled job. -/
  | job (id : JobId)
  /-- An exchange in a slot of the registry of a node. -/
  | exchange (node : NodeName) (id : ExchangeId) (slot : Nat)
  deriving DecidableEq, Repr

namespace Deed

/-- Whether the identifier of a deed was drawn before. -/
def Known (c : Cluster η ω) : Deed → Prop
  | .job id => ∃ k, k < c.nextJob ∧ id = .drawn k
  | .exchange _ _ _ => True

/-- Whether a deed can still be undone: a job is neither published nor queued, and an exchange that
is registered is so under its identifier. -/
def Reversible (c : Cluster η ω) : Deed → Prop
  | .job id => c.jobs.Hides id ∧ ¬ c.Queued id
  | .exchange n id slot => (c.node n).registry.Places id slot

/-- Whether nothing is left of a deed: a job is neither stored nor queued, and an exchange is
detached and not registered. -/
def Undone (c : Cluster η ω) : Deed → Prop
  | .job id => c.jobs.find? id = none ∧ ¬ c.Queued id
  | .exchange n _ slot => (c.node n).registry.Left slot

variable {heard : ω → (NodeName → Routes) → ν} {c d : Cluster η ω} {x : Deed}

/-- What is known stays known, whatever happens apart. -/
theorem Known.apart (hx : x.Known c) (h : c.Apart heard d) : x.Known d := by
  cases x with
  | job id =>
      obtain ⟨k, hk, hid⟩ := hx
      exact ⟨k, Nat.lt_of_lt_of_le hk h.nextJob, hid⟩
  | exchange n id slot => trivial

theorem Reversible.apart (hx : x.Reversible c) (hknown : x.Known c) (h : c.Apart heard d) :
    x.Reversible d := by
  cases x with
  | job id =>
      obtain ⟨k, hk, rfl⟩ := hknown
      obtain ⟨hhidden, hqueued⟩ := hx
      exact ⟨h.hidden k hk hhidden, fun hq => hqueued (h.queued k hk hhidden hq)⟩
  | exchange n id slot => exact (h.exchanges n).places id slot hx

theorem Undone.apart (hx : x.Undone c) (hknown : x.Known c) (h : c.Apart heard d) :
    x.Undone d := by
  cases x with
  | job id =>
      obtain ⟨k, hk, rfl⟩ := hknown
      obtain ⟨hgone, hqueued⟩ := hx
      exact ⟨h.gone k hk hgone,
        fun hq => hqueued (h.queued k hk (JobStore.hides_of_find?_eq_none hgone) hq)⟩
  | exchange n id slot => exact (h.exchanges n).left slot hx

end Deed

/-! ## Calls -/

/-- What a unit of work calls for, in its transaction or around it. -/
inductive WorkCall (η : Type)
  | schedulePersisted (node : NodeName) (details : JobDetails) (dueAt : Option Time)
  | scheduleVolatile (node : NodeName) (transacted : Bool) (details : JobDetails)
      (dueAt : Option Time)
  | createExchange (node : NodeName) (id : ExchangeId) (direction : Direction)
  | createInstance (p : ProcessInstance)
  | setInstanceState (id : InstanceId) (state : InstanceState) (now : Time)
  | setInstanceKey (id : InstanceId) (set value : String)
  | deleteInstance (id : InstanceId)
  /-- Claims the job whose run this is. -/
  | claim (node : NodeName) (id : JobId)
  /-- Takes the job whose run this is out of the store. -/
  | release (node : NodeName) (id : JobId)
  /-- Registers a callback of the application. -/
  | register (moment : Moment) (script : η)
  /-- Has the transaction rolled back in the end. -/
  | mark
  /-- The job store becomes available, or ceases to be. -/
  | setStoreAvailable (available : Bool)
  /-- The resource manager is going to refuse a call. -/
  | refuseNext (what : ResourceCall)

/-- What a call is answered with. -/
inductive WorkAnswer
  | job (answer : Except SchedulerError JobId)
  | exchange (answer : Except RegistryError Nat)
  | written (answer : Except InstanceError Unit)
  | moved (answer : Except InstanceError InstanceState)
  | claimed (answer : Except JobFailure Unit)
  | done

namespace WorkCall

/-- Carries a call out in a transaction. -/
def perform (tx : TxId) (a : WorkCall η) (c : Cluster η ω) : WorkAnswer × Cluster η ω :=
  match a with
  | .schedulePersisted n details dueAt =>
    let (answer, c) := c.schedulePersisted n tx details dueAt
    (.job answer, c)
  | .scheduleVolatile n transacted details dueAt =>
    let (id, c) := c.scheduleVolatile n tx transacted details dueAt
    (.job (.ok id), c)
  | .createExchange n id direction =>
    let (answer, c) := c.createExchange n tx id direction
    (.exchange answer, c)
  | .createInstance p =>
    let (answer, c) := c.createInstance tx p
    (.written answer, c)
  | .setInstanceState id state now =>
    let (answer, c) := c.setInstanceState tx id state now
    (.moved answer, c)
  | .setInstanceKey id set value =>
    let (answer, c) := c.setInstanceKey tx id set value
    (.written answer, c)
  | .deleteInstance id =>
    let (answer, c) := c.deleteInstance tx id
    (.written answer, c)
  | .claim n id =>
    let (answer, c) := c.claimFor n tx id
    (.claimed answer, c)
  | .release n id =>
    let (answer, c) := c.releaseClaim n tx id
    (.claimed answer, c)
  | .register moment script => (.done, c.register tx moment (.custom script))
  | .mark => (.done, c.modifyTransaction tx Transaction.mark)
  | .setStoreAvailable available =>
    (.done, { c with jobs := (StoreCall.setAvailable available).apply c.jobs })
  | .refuseNext what => (.done, { c with resource := c.resource.refuseNext what })

/-- What a call brings into the world, if it is answered so. -/
def deeds : WorkCall η → WorkAnswer → List Deed
  | .schedulePersisted _ _ _, .job (.ok id) => [.job id]
  | .scheduleVolatile _ _ _ _, .job (.ok id) => [.job id]
  | .createExchange n id _, .exchange (.ok slot) => [.exchange n id slot]
  | _, _ => []

end WorkCall

/-! ## Work -/

/-- Work that consists of calls. It ends with a result or in a panic. -/
inductive Work (η α : Type)
  | done (a : α)
  | crash (message : String)
  | call (a : WorkCall η) (next : WorkAnswer → Work η α)

namespace Work

/-- Does the work in a transaction. -/
def act (tx : TxId) : Work η α → Act η ω α
  | .done a => pure a
  | .crash message => Act.panic message
  | .call a next => fun c => (next (a.perform tx c).1).act tx (a.perform tx c).2

/-- What the work brings into the world. -/
def deeds (tx : TxId) : Work η α → Cluster η ω → List Deed
  | .done _, _ => []
  | .crash _, _ => []
  | .call a next, c =>
    a.deeds (a.perform tx c).1 ++ (next (a.perform tx c).1).deeds tx (a.perform tx c).2

/-- Work that is followed by more work, unless it ends in a panic. -/
def bind : Work η α → (α → Work η β) → Work η β
  | .done a, f => f a
  | .crash message, _ => .crash message
  | .call a next, f => .call a fun answer => (next answer).bind f

/-- A program that goes on with another one is carried out as the two in turn. -/
theorem act_bind (tx : TxId) (w : Work η α) (f : α → Work η β) (c : Cluster η ω) :
    (w.bind f).act tx c = (w.act tx >>= fun a => (f a).act tx) c := by
  induction w generalizing c with
  | done a => rfl
  | crash message => rfl
  | call a next ih => exact ih _ _

end Work

end JobCluster
