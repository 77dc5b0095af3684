import JobCluster.Proofs.Cluster.Undoing
/-!
# Timeouts of threads

A thread can set a timeout for the transactions that it is going to begin. Work in a transaction of
its own sets one for the time of the work alone, and so does a guard: what was set before comes back
when they end, however they end. Inside, everything may set timeouts as it likes: the work, other
guards and transactions in it, and the callbacks that run when a transaction comes to its end, which
it also does when a panic passes by.

The world outside may keep a record of the transactions that begin: the timeout that each of them
carries, and what was set on its thread by then. Nothing else writes to the record, and without one
the work is as it is.

Main results:

- `Cluster.runInTransaction_eq_withTimeout`: work in a transaction is guarded as by a guard;
- `Cluster.Nest`: guards and transactions, one in another;
- `Cluster.Nest.spares`: such work leaves the timeouts of other threads alone, and its transactions
  carry what was set when they began;
- `Cluster.timeouts_contained`: once the outermost guard or transaction is over, every timeout is as
  before.
-/

namespace JobCluster

/-- What is noted of a transaction that begins: the timeout that it carries, and the one that its
thread has set. -/
structure Beginning where
  timeout : Option Time
  inForce : Option Time
  deriving DecidableEq, Repr

/-- How the world outside keeps a record of the transactions that have begun. -/
structure Chronicle (ω : Type) where
  /-- What is on record. -/
  read : ω → List Beginning
  /-- Puts a transaction on record that has just begun. -/
  keep : Beginning → ω → ω

variable {η ω α β ε : Type}

namespace Chronicle

/-- Whether whatever is put on record comes behind what was on record before. -/
def Complete (r : Chronicle ω) : Prop := ∀ b w, r.read (r.keep b w) = r.read w ++ [b]

/-- Keeps no record. -/
def silent : Chronicle ω := ⟨fun _ => [], fun _ w => w⟩

/-- Keeps the record as part of the world outside. -/
def log : Chronicle (ω × List Beginning) := ⟨Prod.snd, fun b w => (w.1, w.2 ++ [b])⟩

theorem complete_log : (log : Chronicle (ω × List Beginning)).Complete := fun _ _ => rfl

/-- Whether all transactions are on record that have begun from one cluster to another, each with
the timeout that its thread had set, or else the default of its node. -/
def Tells (r : Chronicle ω) (n : NodeName) (c d : Cluster η ω) : Prop :=
  ∃ new, r.read d.outside = r.read c.outside ++ new ∧
    d.resource.begun = c.resource.begun + new.length ∧
    ∀ b ∈ new, b.timeout = some (b.inForce.getD (c.node n).manager.defaultTimeout)

end Chronicle

/-- Whether the listeners of an application leave the record alone. -/
def Application.LeavesRecord (app : Application η ω) (r : Chronicle ω) : Prop :=
  ∀ name event w, r.read (app.listener name event w) = r.read w

/-- A thread that comes to own a transaction keeps its timeout, as all others do. -/
theorem TxManager.timeouts_of_claim {m m' : TxManager} {thread : Thread} {id : TxId}
    (h : m.claim thread id = .ok m') :
    m'.timeouts = m.timeouts ∧ m'.defaultTimeout = m.defaultTimeout := by
  unfold claim at h
  split at h <;> cases h
  exact ⟨rfl, rfl⟩

/-- Lets work end with a panic that goes no further. -/
def Act.caught (x : Act η ω α) : Act η ω (Except String α) := fun c =>
  match x c with
  | (.ok a, d) => (.ok (.ok a), d)
  | (.error p, d) => (.ok (.error p.message), d)

/-- An action is carried out in the same way, whether or not its panic is caught. -/
theorem Act.caught_snd (x : Act η ω α) (c : Cluster η ω) : (x.caught c).2 = (x c).2 := by
  unfold caught
  rcases x c with ⟨_ | _, d⟩ <;> rfl

namespace Cluster

/-! ## Guards -/

/-- Sets the timeout of a thread, or goes back to the default. -/
def setTimeout (n : NodeName) (thread : Thread) (timeout : Option Time) : Act η ω Unit :=
  Act.modify fun c => c.modifyManager n fun m => m.setTimeout thread timeout

/-- Does work under a guard: a timeout, if one is given, is set for the time of the work, and what
was set before comes back in the end. -/
def withTimeout (n : NodeName) (thread : Thread) (timeout : Option Time) (x : Act η ω α) :
    Act η ω α := fun c =>
  let before := (c.node n).manager.override? thread
  let (answer, d) := x (c.modifyManager n fun m => m.overrideTimeout thread timeout)
  (answer, d.modifyManager n fun m => m.setTimeout thread before)

/-- Does work in a transaction that begins with the timeout that is set, and comes to its end. -/
def transacted (app : Application η ω) (n : NodeName) (thread : Thread)
    (body : TxId → Act η ω (Except ε α)) : Act η ω (Except (WorkFailure ε) α) := fun c =>
  match c.begin n thread with
  | (.error e, c) => (.ok (.error (.transaction e)), c)
  | (.ok id, c) =>
    match body id c with
    | (.error p, c) => (.error p, c.abandon app thread id)
    | (.ok (.error e), c) => (.ok (.error (.body e)), c.abandon app thread id)
    | (.ok (.ok a), c) =>
      match c.commit app thread id with
      | (.ok (), c) => (.ok (.ok a), c)
      | (.error e, c) => (.ok (.error (.transaction e)), c)

/-- Work in a transaction of its own is under a guard, which ends when the transaction has. -/
theorem runInTransaction_eq_withTimeout (app : Application η ω) (n : NodeName) (thread : Thread)
    (timeout : Option Time) (body : TxId → Act η ω (Except ε α)) :
    runInTransaction app n thread timeout body =
      withTimeout n thread timeout (transacted app n thread body) := by
  funext c
  unfold runInTransaction withTimeout transacted
  dsimp only
  rcases (c.modifyManager n fun m => m.overrideTimeout thread timeout).begin n thread with
    ⟨e | tx, d⟩
  · rfl
  · dsimp only
    rcases body tx d with ⟨p | (e | a), d'⟩
    · rfl
    · rfl
    · dsimp only
      rcases d'.commit app thread tx with ⟨e | _, d''⟩ <;> rfl

/-- A change of a manager changes that of its own node only. -/
theorem manager_modifyManager (c : Cluster η ω) (n m : NodeName) (f : TxManager → TxManager) :
    ((c.modifyManager n f).node m).manager =
      if n = m then f (c.node n).manager else (c.node m).manager := by
  rw [modifyManager, node_modifyNode]
  split <;> rfl

/-- What was set on a thread before a guard is set after it, whatever the work has done. -/
theorem override?_withTimeout (n : NodeName) (thread : Thread) (timeout : Option Time)
    (x : Act η ω α) (c : Cluster η ω) :
    ((withTimeout n thread timeout x c).2.node n).manager.override? thread =
      (c.node n).manager.override? thread := by
  unfold withTimeout
  dsimp only
  rw [manager_modifyManager, if_pos rfl, TxManager.override?_setTimeout, if_pos rfl]

/-! ## Steps that have nothing to do with timeouts -/

/-- Whether a step sets no timeout on any thread, and lets no transaction begin. -/
structure LeavesTimeouts (r : Chronicle ω) (c d : Cluster η ω) : Prop where
  timeouts : ∀ m, (d.node m).manager.timeouts = (c.node m).manager.timeouts
  default : ∀ m, (d.node m).manager.defaultTimeout = (c.node m).manager.defaultTimeout
  begun : d.resource.begun = c.resource.begun
  record : r.read d.outside = r.read c.outside

namespace LeavesTimeouts

variable {r : Chronicle ω} {c d e : Cluster η ω} {n : NodeName}

theorem refl (c : Cluster η ω) : c.LeavesTimeouts r c :=
  ⟨fun _ => rfl, fun _ => rfl, rfl, rfl⟩

/-- Steps that have nothing to do with timeouts may follow one another. -/
theorem trans (h : c.LeavesTimeouts r d) (h' : d.LeavesTimeouts r e) : c.LeavesTimeouts r e :=
  ⟨fun m => (h'.timeouts m).trans (h.timeouts m), fun m => (h'.default m).trans (h.default m),
    h'.begun.trans h.begun, h'.record.trans h.record⟩

/-- A node may change, as long as its manager keeps the timeouts. -/
theorem modifyNode (c : Cluster η ω) {f : Node η → Node η}
    (htimeouts : (f (c.node n)).manager.timeouts = (c.node n).manager.timeouts)
    (hdefault : (f (c.node n)).manager.defaultTimeout = (c.node n).manager.defaultTimeout) :
    c.LeavesTimeouts r (c.modifyNode n f) := by
  refine ⟨fun m => ?_, fun m => ?_, rfl, rfl⟩
  · rw [node_modifyNode]
    split
    · next h => exact h ▸ htimeouts
    · rfl
  · rw [node_modifyNode]
    split
    · next h => exact h ▸ hdefault
    · rfl

theorem modifyRegistry (c : Cluster η ω) (n : NodeName) (f : Registry → Registry) :
    c.LeavesTimeouts r (c.modifyRegistry n f) :=
  modifyNode c rfl rfl

theorem modifyTodo (c : Cluster η ω) (n : NodeName) (f : TodoQueue → TodoQueue) :
    c.LeavesTimeouts r (c.modifyTodo n f) := by
  unfold Cluster.modifyTodo modifyScheduler
  exact modifyNode c rfl rfl

/-- The resource manager may count, as long as it lets no transaction begin. -/
theorem setResource (c : Cluster η ω) {resource : ResourceManager}
    (h : resource.begun = c.resource.begun) : c.LeavesTimeouts r { c with resource } :=
  ⟨fun _ => rfl, fun _ => rfl, h, rfl⟩

/-- A transaction may be taken out. -/
theorem takeOut (c : Cluster η ω) (tx : TxId) :
    c.LeavesTimeouts r { c with transactions := c.transactions.erase tx } :=
  ⟨fun _ => rfl, fun _ => rfl, rfl, rfl⟩

/-- A thread may cease to own a transaction. -/
theorem release (c : Cluster η ω) (n : NodeName) (thread : Thread) (tx : TxId) :
    c.LeavesTimeouts r (c.modifyManager n fun m => m.release thread tx) := by
  refine modifyNode c ?_ ?_ <;>
  · dsimp only
    unfold TxManager.release
    split <;> rfl

/-- To drop a claimed job has nothing to do with timeouts. -/
theorem dropClaimed (c : Cluster η ω) (n : NodeName) (id : JobId) :
    c.LeavesTimeouts r (c.dropClaimed n id).2 := by
  rw [dropClaimed_snd]
  exact ⟨fun _ => rfl, fun _ => rfl, rfl, rfl⟩

theorem settleStaged (c : Cluster η ω) (n : NodeName) (plan : PersistedPlan)
    (committed : Bool) : c.LeavesTimeouts r (c.settleStaged n plan committed).2 := by
  have hjobs : ∀ jobs, c.LeavesTimeouts r { c with jobs } :=
    fun _ => ⟨fun _ => rfl, fun _ => rfl, rfl, rfl⟩
  unfold Cluster.settleStaged
  split
  · split
    · exact refl c
    · next jobs _ =>
      dsimp only
      split
      · refine (hjobs jobs).trans ?_
        unfold enqueuePublished
        exact modifyTodo _ n _
      · exact hjobs jobs
  · exact hjobs _

/-- Listeners may be told of changes, if those of the application leave the record alone. -/
theorem completeWrites {app : Application η ω} (happ : app.LeavesRecord r) (c : Cluster η ω)
    (tx : TxId) (committed : Bool) :
    c.LeavesTimeouts r (c.completeWrites app tx committed) := by
  have htell : ∀ event (d : Cluster η ω) listener,
      d.LeavesTimeouts r (tell app event d listener) := by
    intro event d listener
    cases listener with
    | cleanUp n => exact modifyRegistry d n fun registry => registry.cleanUp event.id
    | report name => exact ⟨fun _ => rfl, fun _ => rfl, rfl, happ name event _⟩
  unfold Cluster.completeWrites announce
  refine List.foldlRecOn _ _ ?_ fun d hd event _ => ?_
  · exact ⟨fun _ => rfl, fun _ => rfl, rfl, rfl⟩
  · exact List.foldlRecOn d.listeners _ hd fun e he listener _ => he.trans (htell event e listener)

end LeavesTimeouts

/-! ## What a thread may do to timeouts -/

/-- Whether one cluster has come out of another without a change of a timeout but the thread's own,
and whether every transaction that has begun meanwhile is on record, and carries the timeout that
its thread had set, or else the default of its node. -/
structure Spares (r : Chronicle ω) (n : NodeName) (thread : Thread) (c d : Cluster η ω) :
    Prop where
  others : ∀ m other, (m = n → other ≠ thread) →
    (d.node m).manager.override? other = (c.node m).manager.override? other
  default : ∀ m, (d.node m).manager.defaultTimeout = (c.node m).manager.defaultTimeout
  record : r.Complete → r.Tells n c d

variable {r : Chronicle ω} {c d e : Cluster η ω} {n : NodeName} {thread : Thread}

theorem LeavesTimeouts.spares (h : c.LeavesTimeouts r d) (n : NodeName) (thread : Thread) :
    c.Spares r n thread d where
  others m other _ := by rw [TxManager.override?, h.timeouts m, TxManager.override?]
  default := h.default
  record _ := ⟨[], by rw [h.record, List.append_nil], h.begun, nofun⟩

namespace Spares

theorem refl (c : Cluster η ω) : c.Spares r n thread c :=
  (LeavesTimeouts.refl c).spares n thread

/-- Threads that are spared twice are spared. -/
theorem trans (h : c.Spares r n thread d) (h' : d.Spares r n thread e) : c.Spares r n thread e where
  others m other hne := (h'.others m other hne).trans (h.others m other hne)
  default m := (h'.default m).trans (h.default m)
  record hr := by
    obtain ⟨new, hrecord, hbegun, hnew⟩ := h.record hr
    obtain ⟨more, hrecord', hbegun', hmore⟩ := h'.record hr
    refine ⟨new ++ more, ?_, ?_, fun b hb => ?_⟩
    · rw [hrecord', hrecord, List.append_assoc]
    · rw [hbegun', hbegun, List.length_append, Nat.add_assoc]
    · rcases List.mem_append.mp hb with hb | hb
      · exact hnew b hb
      · rw [hmore b hb, h.default n]

/-- The thread may set its own timeout. -/
theorem setTimeout (c : Cluster η ω) (n : NodeName) (thread : Thread)
    (timeout : Option Time) :
    c.Spares r n thread (c.modifyManager n fun m => m.setTimeout thread timeout) := by
  refine ⟨fun m other hne => ?_, fun m => ?_,
    fun _ => ⟨[], (List.append_nil _).symm, rfl, nofun⟩⟩
  · rw [manager_modifyManager]
    split
    · next heq =>
      rw [TxManager.override?_setTimeout, if_neg (Ne.symm (hne heq.symm)), heq]
    · rfl
  · rw [manager_modifyManager]
    split
    · next heq => exact heq ▸ rfl
    · rfl

/-- A thread that sets its own timeout spares the others. -/
theorem overrideTimeout (c : Cluster η ω) (n : NodeName) (thread : Thread)
    (timeout : Option Time) :
    c.Spares r n thread (c.modifyManager n fun m => m.overrideTimeout thread timeout) := by
  cases timeout with
  | none => exact (LeavesTimeouts.modifyNode c rfl rfl).spares n thread
  | some time => exact setTimeout c n thread (some time)

/-- Whatever work leaves the timeouts of others alone does so under a guard. -/
theorem withTimeout {x : Act η ω α}
    (hx : ∀ c : Cluster η ω, c.Spares r n thread (x c).2) (timeout : Option Time)
    (c : Cluster η ω) :
    c.Spares r n thread (withTimeout n thread timeout x c).2 :=
  ((overrideTimeout c n thread timeout).trans (hx _)).trans (setTimeout _ n thread _)

end Spares

/-! ## Transactions on record -/

/-- Notes a transaction that has just begun on a thread. -/
def note (r : Chronicle ω) (n : NodeName) (thread : Thread) (tx : TxId) (c : Cluster η ω) :
    Cluster η ω :=
  c.modifyOutside (r.keep
    ⟨(c.transaction? tx).map Transaction.timeout, (c.node n).manager.override? thread⟩)

@[simp] theorem node_note (r : Chronicle ω) (n m : NodeName) (thread : Thread) (tx : TxId)
    (c : Cluster η ω) : (note r n thread tx c).node m = c.node m :=
  rfl

/-- Work in a transaction that is noted first of all. -/
def recorded (r : Chronicle ω) (n : NodeName) (thread : Thread) (body : TxId → Act η ω α)
    (tx : TxId) : Act η ω α := do
  Act.modify (note r n thread tx)
  body tx

/-- Without a record the work is as it is. -/
theorem recorded_silent (n : NodeName) (thread : Thread) (body : TxId → Act η ω α) :
    recorded .silent n thread body = body :=
  rfl

/-- What comes of a transaction that begins and is noted. -/
structure Opens (r : Chronicle ω) (n : NodeName) (thread : Thread) (b : Beginning)
    (c d : Cluster η ω) : Prop where
  timeouts : ∀ m, (d.node m).manager.timeouts = (c.node m).manager.timeouts
  default : ∀ m, (d.node m).manager.defaultTimeout = (c.node m).manager.defaultTimeout
  record : r.Complete → r.read d.outside = r.read c.outside ++ [b]
  begun : d.resource.begun = c.resource.begun + 1
  inForce : b.inForce = (c.node n).manager.override? thread
  timeout : b.timeout = some ((c.node n).manager.timeout thread)

/-- A transaction that begins spares the timeouts of the other threads. -/
theorem Opens.spares {b : Beginning} (h : c.Opens r n thread b d) : c.Spares r n thread d where
  others m other _ := by rw [TxManager.override?, h.timeouts m, TxManager.override?]
  default := h.default
  record hr := by
    refine ⟨[b], h.record hr, h.begun, fun b' hb' => ?_⟩
    rw [List.mem_singleton.mp hb', h.timeout, h.inForce, TxManager.timeout]

/-- A transaction that begins carries the timeout that its thread has set. -/
theorem opens_begin {tx : TxId} (h : c.begin n thread = (.ok tx, d)) :
    ∃ b, c.Opens r n thread b (note r n thread tx d) := by
  unfold begin at h
  dsimp only at h
  split at h
  · cases h
  · next manager hclaim =>
    obtain ⟨htimeouts, hdefault⟩ : manager.timeouts = (c.node n).manager.timeouts ∧
        manager.defaultTimeout = (c.node n).manager.defaultTimeout :=
      TxManager.timeouts_of_claim hclaim
    split at h
    · cases h
    · next resource hresource =>
      have hbegun : resource.begun = c.resource.begun + 1 := by
        rw [((ResourceManager.begin_eq_ok_iff _ _ _).mp hresource).2]
      cases h
      refine ⟨⟨some (manager.timeout thread), manager.override? thread⟩, fun m => ?_, fun m => ?_,
        ?_, hbegun, ?_, ?_⟩
      · rw [node_note, manager_modifyManager]
        split
        · next heq => exact heq ▸ htimeouts
        · rfl
      · rw [node_note, manager_modifyManager]
        split
        · next heq => exact heq ▸ hdefault
        · rfl
      · intro hr
        simp [note, modifyOutside, modifyManager, transaction?, modifyNode, setNode, node, hr _ _]
      · rw [TxManager.override?, htimeouts, TxManager.override?]
      · rw [TxManager.timeout, TxManager.override?, htimeouts, hdefault, TxManager.timeout,
          TxManager.override?]

/-- Begins a transaction and notes it. -/
def beginNoted (r : Chronicle ω) (n : NodeName) (thread : Thread) :
    Act η ω (Except TxError TxId) := fun c =>
  match c.begin n thread with
  | (.ok tx, d) => (.ok (.ok tx), note r n thread tx d)
  | (.error e, d) => (.ok (.error e), d)

/-- A transaction that may not begin is not counted. -/
theorem leavesTimeouts_of_begin_eq_error {e : TxError} (h : c.begin n thread = (.error e, d)) :
    c.LeavesTimeouts r d := by
  unfold begin at h
  dsimp only at h
  split at h
  · cases h
    exact ⟨fun _ => rfl, fun _ => rfl, rfl, rfl⟩
  · split at h
    · next resource hresource =>
      cases h
      have hbegun : resource.begun = c.resource.begun := by
        unfold ResourceManager.begin at hresource
        split at hresource <;> cases hresource
        rfl
      exact ⟨fun _ => rfl, fun _ => rfl, hbegun, rfl⟩
    · cases h

theorem spares_beginNoted (c : Cluster η ω) :
    c.Spares r n thread (beginNoted r n thread c).2 := by
  unfold beginNoted
  rcases hbegin : c.begin n thread with ⟨e | tx, d⟩
  · exact (leavesTimeouts_of_begin_eq_error hbegin).spares n thread
  · obtain ⟨b, hopens⟩ := opens_begin hbegin
    exact hopens.spares

/-! ## The end of a transaction -/

section Ending

variable {app : Application η ω} (happ : app.LeavesRecord r)
  (hhooks : ∀ script phase c, Spares r n thread c (app.callback thread script phase c).2)

include happ hhooks

/-- Transactions come to their end as the callbacks let them, and set no timeouts themselves. -/
theorem spares_runCallback (callback : Callback η) (phase : Phase) (c : Cluster η ω) :
    c.Spares r n thread (runCallback app thread callback phase c).2 := by
  cases callback with
  | publish m plan => exact (LeavesTimeouts.settleStaged c m plan _).spares n thread
  | queue m info =>
      have hqueue : c.LeavesTimeouts r (c.enqueueVolatile m info) := .modifyTodo c m _
      exact hqueue.spares n thread
  | drop m id armed =>
      cases armed with
      | true => exact (LeavesTimeouts.dropClaimed c m id).spares n thread
      | false => exact .refl c
  | applyWrites tx => exact (LeavesTimeouts.completeWrites happ c tx _).spares n thread
  | withdraw m id => exact (LeavesTimeouts.modifyRegistry c m _).spares n thread
  | custom script =>
      have hhook := hhooks script phase c
      simp only [runCallback]
      rcases hrun : app.callback thread script phase c with ⟨p | (cause | _), d⟩ <;>
        · rw [hrun] at hhook
          exact hhook

theorem keeps_spares (c : Cluster η ω) :
    (surroundings app thread).Keeps (c.Spares r n thread) where
  run callback phase d hd := hd.trans (spares_runCallback happ hhooks callback phase d)
  commitResource id d hd := by
    have hbegun : (d.resource.commit id).2.begun = d.resource.begun := by
      unfold ResourceManager.commit
      split <;> rfl
    exact hd.trans ((LeavesTimeouts.setResource d hbegun).spares n thread)
  rollbackResource id d hd := by
    have hbegun : d.resource.rollback.2.begun = d.resource.begun := by
      unfold ResourceManager.rollback
      dsimp only
      split <;> rfl
    exact hd.trans ((LeavesTimeouts.setResource d hbegun).spares n thread)
  leave t d hd := hd.trans ((LeavesTimeouts.release d t.node t.owner t.id).spares n thread)

theorem spares_commit (c : Cluster η ω) (tx : TxId) :
    c.Spares r n thread (c.commit app thread tx).2 := by
  unfold commit conclude
  split
  · exact .refl c
  · next t _ =>
    exact (keeps_spares happ hhooks c).commit t ((LeavesTimeouts.takeOut c tx).spares n thread)

theorem spares_abandon (c : Cluster η ω) (tx : TxId) :
    c.Spares r n thread (c.abandon app thread tx) := by
  unfold abandon rollback conclude
  split
  · exact .refl c
  · next t _ =>
    exact (keeps_spares happ hhooks c).rollback t ((LeavesTimeouts.takeOut c tx).spares n thread)

variable {body : TxId → Act η ω (Except ε α)}
  (hbody : ∀ tx c, Spares r n thread c (body tx c).2)

include hbody

/-- Either a transaction may not begin, or it is noted with the timeout that its thread has set, and
whatever happens then leaves the timeouts of others alone. -/
theorem transacted_recorded (c : Cluster η ω) :
    c.LeavesTimeouts r (transacted app n thread (recorded r n thread body) c).2 ∨
      ∃ b d, c.Opens r n thread b d ∧
        d.Spares r n thread (transacted app n thread (recorded r n thread body) c).2 := by
  unfold transacted
  rcases hbegin : c.begin n thread with ⟨e | tx, d⟩
  · exact .inl (leavesTimeouts_of_begin_eq_error hbegin)
  · obtain ⟨b, hopens⟩ := opens_begin hbegin
    refine .inr ⟨b, note r n thread tx d, hopens, ?_⟩
    have hrun := hbody tx (note r n thread tx d)
    have hrecorded : recorded r n thread body tx d = body tx (note r n thread tx d) := rfl
    simp only [hrecorded]
    rcases hend : body tx (note r n thread tx d) with ⟨p | (e | a), d'⟩ <;> rw [hend] at hrun
    · exact hrun.trans (spares_abandon happ hhooks d' tx)
    · exact hrun.trans (spares_abandon happ hhooks d' tx)
    · have hcommit := hrun.trans (spares_commit happ hhooks d' tx)
      dsimp only
      rcases hanswer : d'.commit app thread tx with ⟨e | _, d''⟩ <;>
        · rw [hanswer] at hcommit
          exact hcommit

theorem spares_transacted (c : Cluster η ω) :
    c.Spares r n thread (transacted app n thread (recorded r n thread body) c).2 := by
  rcases transacted_recorded happ hhooks hbody c with h | ⟨b, d, hopens, h⟩
  · exact h.spares n thread
  · exact hopens.spares.trans h

/-- The first transaction that begins in the course of the work is that of the work itself. -/
theorem inForce_of_transacted (hr : r.Complete) {b : Beginning} {rest : List Beginning}
    (hrecord : r.read (transacted app n thread (recorded r n thread body) c).2.outside =
      r.read c.outside ++ b :: rest) : b.inForce = (c.node n).manager.override? thread := by
  rcases transacted_recorded happ hhooks hbody c with h | ⟨first, d, hopens, h⟩
  · rw [h.record, List.self_eq_append_right] at hrecord
    cases hrecord
  · obtain ⟨more, hmore, _⟩ := h.record hr
    rw [hmore, hopens.record hr, List.append_assoc, List.append_cancel_left_eq] at hrecord
    obtain rfl : first = b := List.head_eq_of_cons_eq hrecord
    exact hopens.inForce

end Ending

/-! ## One in another -/

/-- What a thread can do with guards and transactions, one in another: set timeouts, do work under
a guard and do work in a transaction of its own, whose body and whose callbacks are of the same
kind. It may panic, and let panics go no further. -/
inductive Nest (r : Chronicle ω) (n : NodeName) (thread : Thread) :
    {α : Type} → Act η ω α → Prop
  /-- Work that has nothing to do with timeouts. -/
  | aside {α : Type} {x : Act η ω α} (h : ∀ c, LeavesTimeouts r c (x c).2) :
      Nest r n thread x
  | bind {α β : Type} {x : Act η ω α} {f : α → Act η ω β}
      (hx : Nest r n thread x) (hf : ∀ a, Nest r n thread (f a)) : Nest r n thread (x >>= f)
  | caught {α : Type} {x : Act η ω α} (hx : Nest r n thread x) : Nest r n thread x.caught
  | setTimeout (timeout : Option Time) : Nest r n thread (setTimeout n thread timeout)
  | guard {α : Type} {x : Act η ω α} (timeout : Option Time) (hx : Nest r n thread x) :
      Nest r n thread (withTimeout n thread timeout x)
  /-- A transaction may begin by hand, under whatever guard. -/
  | begin : Nest r n thread (beginNoted r n thread)
  | commit {app : Application η ω} (happ : app.LeavesRecord r)
      (hhooks : ∀ script phase, Nest r n thread (app.callback thread script phase)) (tx : TxId) :
      Nest r n thread (Act.lift (commit app thread tx))
  | rollback {app : Application η ω} (happ : app.LeavesRecord r)
      (hhooks : ∀ script phase, Nest r n thread (app.callback thread script phase)) (tx : TxId) :
      Nest r n thread (Act.lift (rollback app thread tx))
  | exec {α : Type} {app : Application η ω}
      {body : TxId → Act η ω (Except String α)} (timeout : Option Time)
      (happ : app.LeavesRecord r)
      (hhooks : ∀ script phase, Nest r n thread (app.callback thread script phase))
      (hbody : ∀ tx, Nest r n thread (body tx)) :
      Nest r n thread (execTransaction app n thread timeout (recorded r n thread body))

namespace Nest

/-- A program that only answers is a nest. -/
theorem pure (a : α) : Nest r n thread (pure a : Act η ω α) :=
  aside fun c => .refl c

theorem panic (message : String) : Nest r n thread (Act.panic message : Act η ω α) :=
  aside fun c => .refl c

/-- Whatever a thread does with guards and transactions leaves the timeouts of others alone, and its
transactions carry what was set when they began. -/
theorem spares {x : Act η ω α} (h : Nest r n thread x) (c : Cluster η ω) :
    c.Spares r n thread (x c).2 := by
  induction h generalizing c with
  | aside h => exact (h c).spares n thread
  | @bind _ _ x f _ _ ihx ihf =>
      have hx := ihx c
      rw [Act.bind_apply]
      rcases hend : x c with ⟨p | a, d⟩ <;> rw [hend] at hx
      · exact hx
      · exact hx.trans (ihf a d)
  | caught _ ih =>
      rw [Act.caught_snd]
      exact ih c
  | setTimeout timeout => exact .setTimeout c n thread timeout
  | guard timeout _ ih => exact .withTimeout ih timeout c
  | begin => exact spares_beginNoted c
  | commit happ _ tx ihhooks => exact spares_commit happ ihhooks c tx
  | rollback happ _ tx ihhooks => exact spares_abandon happ ihhooks c tx
  | exec timeout happ _ _ ihhooks ihbody =>
      rw [execTransaction_snd, runInTransaction_eq_withTimeout]
      exact .withTimeout (spares_transacted happ ihhooks ihbody) timeout c

end Nest

/-! ## The outermost guard or transaction -/

/-- Whether every timeout is as before. If the record is complete, all transactions are on it that
have begun since, each of which carries the timeout that its thread had set, or else the default. -/
structure Restored (r : Chronicle ω) (n : NodeName) (c d : Cluster η ω) : Prop where
  timeouts : ∀ m thread,
    (d.node m).manager.override? thread = (c.node m).manager.override? thread
  record : r.Complete → r.Tells n c d

/-- What a guard keeps is what the work under it keeps, and the timeout of the thread itself. -/
theorem restored_withTimeout {x : Act η ω α}
    (hx : ∀ c : Cluster η ω, c.Spares r n thread (x c).2) (timeout : Option Time)
    (c : Cluster η ω) : c.Restored r n (withTimeout n thread timeout x c).2 := by
  have hspares := Spares.withTimeout hx timeout c
  refine ⟨fun m other => ?_, hspares.record⟩
  by_cases hown : m = n ∧ other = thread
  · obtain ⟨rfl, rfl⟩ := hown
    exact override?_withTimeout m other timeout x c
  · exact hspares.others m other fun hm hother => hown ⟨hm, hother⟩

/-- Whatever guards and transactions a thread has had one in another, and however they ended, once
the outermost is over every timeout of every thread is as it was before. Every transaction that has
begun meanwhile carries the timeout that its thread had set by then, or else the default; the one of
the outermost work carries the timeout that the work was given. -/
theorem timeouts_contained (r : Chronicle ω) (n : NodeName) (thread : Thread)
    (timeout : Option Time) (c : Cluster η ω) :
    (∀ {α : Type} {x : Act η ω α}, Nest r n thread x →
      c.Restored r n (withTimeout n thread timeout x c).2) ∧
    (∀ {α : Type} {app : Application η ω} {body : TxId → Act η ω (Except String α)},
      app.LeavesRecord r →
      (∀ script phase, Nest r n thread (app.callback thread script phase)) →
      (∀ tx, Nest r n thread (body tx)) →
      let d := (execTransaction app n thread timeout (recorded r n thread body) c).2
      c.Restored r n d ∧
        (r.Complete → ∀ b rest, r.read d.outside = r.read c.outside ++ b :: rest →
          b.inForce = timeout.or ((c.node n).manager.override? thread))) := by
  refine ⟨fun hx => restored_withTimeout hx.spares timeout c,
    fun {α app body} happ hhooks hbody => ?_⟩
  have hcallbacks := fun script phase => (hhooks script phase).spares
  have hwork := fun tx => (hbody tx).spares
  rw [execTransaction_snd, runInTransaction_eq_withTimeout]
  refine ⟨restored_withTimeout (spares_transacted happ hcallbacks hwork) timeout c,
    fun hr b rest hrecord => ?_⟩
  rw [inForce_of_transacted happ hcallbacks hwork hr hrecord, manager_modifyManager, if_pos rfl]
  cases timeout with
  | none => rfl
  | some time => simp [TxManager.overrideTimeout]

end Cluster

/-! ## Work that is hard on timeouts -/

/-- An application whose callbacks do nothing. -/
def Application.calm : Application Bool ω where
  callback _ _ _ := pure (.ok ())
  handler _ _ _ _ := pure (.ok ())
  listener _ _ w := w

/-- An application whose callbacks set a timeout or none, do work in a transaction, and panic. -/
def Application.fickle (r : Chronicle ω) : Application Bool ω where
  callback thread script _ := do
    Cluster.setTimeout "n" thread (if script then some 9 else none)
    let _ ← Cluster.execTransaction .calm "n" thread none
      (Cluster.recorded r "n" thread fun _ => pure (.ok ()))
    Act.panic "callback"
  handler _ _ _ _ := pure (.ok ())
  listener _ _ w := w

namespace Cluster

/-- Work that registers callbacks, asks for a transaction although it is in one, sets timeouts under
a guard and without one, and panics. -/
def fickleWork (r : Chronicle ω) (tx : TxId) : Act Bool ω (Except String Unit) := do
  setTimeout "n" .main (some 4)
  Act.modify fun c => c.register tx .both (.custom true)
  Act.modify fun c => c.register tx .after (.custom false)
  let _ ← execTransaction .calm "n" .main (some 2) (recorded r "n" .main fun _ => pure (.ok ()))
  withTimeout "n" .main (some 3) (setTimeout "n" .main none)
  Act.panic "work"

/-- Work under a guard that takes the timeout back, begins a transaction, and panics. -/
def fickleGuarded (r : Chronicle ω) : Act Bool ω Unit := do
  setTimeout "n" .main none
  let _ ← beginNoted r "n" .main
  Act.panic "work"

/-- A cluster of one node, where two threads have set timeouts. -/
def ofTimeouts (w : ω) : Cluster Bool ω where
  clock := 0
  nodes := Table.ofList
    [("n", { (default : Node Bool) with
      manager := {
        defaultTimeout := 60
        timeouts := Table.ofList [(.main, 7), (.worker "n", 8)] } })]
  outside := w

/-- A call in a transaction with a timeout of its own is a nest. -/
theorem nest_exec_calm (r : Chronicle ω) (timeout : Option Time) :
    Nest r "n" .main (execTransaction .calm "n" .main timeout (recorded r "n" .main fun _ =>
      (pure (.ok ()) : Act Bool ω (Except String Unit)))) :=
  .exec timeout (fun _ _ _ => rfl) (fun _ _ => .pure _) fun _ => .pure _

theorem nest_fickle (r : Chronicle ω) (script : Bool) (phase : Phase) :
    Nest r "n" .main ((Application.fickle r).callback .main script phase) :=
  .bind (.setTimeout _) fun _ => .bind (nest_exec_calm r none) fun _ => .panic _

/-- The work that sets its timeout and panics is a nest. -/
theorem nest_fickleWork (r : Chronicle ω) (tx : TxId) : Nest r "n" .main (fickleWork r tx) := by
  have hregister : ∀ moment script, Nest r "n" .main
      (Act.modify fun c : Cluster Bool ω => c.register tx moment (.custom script)) :=
    fun _ _ => .aside fun _ => ⟨fun _ => rfl, fun _ => rfl, rfl, rfl⟩
  exact .bind (.setTimeout _) fun _ => .bind (hregister .both true) fun _ =>
    .bind (hregister .after false) fun _ => .bind (nest_exec_calm r (some 2)) fun _ =>
    .bind (.guard (some 3) (.setTimeout none)) fun _ => .panic _

/-- So is the work under a guard. -/
theorem nest_fickleGuarded (r : Chronicle ω) : Nest r "n" .main (fickleGuarded r) :=
  .bind (.setTimeout none) fun _ => .bind .begin fun _ => .panic _

/-- Under a guard whose timeout is taken back, a transaction that begins by hand carries the
default. In work that panics, the callbacks set timeouts and have transactions begin, which carry
what they have set. Both times the threads have in the end what they had set before, with or without
a record. -/
theorem timeouts_contained_fickle :
    (let c : Cluster Bool (Unit × List Beginning) := ofTimeouts ((), [])
    let d := (withTimeout "n" .main (some 1) (fickleGuarded .log) c).2
    let e := (execTransaction (.fickle .log) "n" .main (some 5)
      (recorded .log "n" .main (fickleWork .log)) c).2
    c.Restored .log "n" d ∧ Chronicle.log.Tells "n" c d ∧ d.outside.2 = [⟨some 60, none⟩] ∧
      c.Restored .log "n" e ∧ Chronicle.log.Tells "n" c e ∧
      e.outside.2 = [⟨some 5, some 5⟩, ⟨some 9, some 9⟩, ⟨some 60, none⟩] ∧
      ∀ b rest, e.outside.2 = b :: rest → b.inForce = some 5) ∧
    let c : Cluster Bool Unit := ofTimeouts ()
    c.Restored .silent "n"
      (execTransaction (.fickle .silent) "n" .main (some 5) (fickleWork .silent) c).2 := by
  have hguard := (timeouts_contained .log "n" .main (some 1) (ofTimeouts ((), []))).1
    (nest_fickleGuarded .log)
  obtain ⟨hwork, hfirst⟩ := (timeouts_contained .log "n" .main (some 5) (ofTimeouts ((), []))).2
    (fun _ _ _ => rfl) (nest_fickle .log) (nest_fickleWork .log)
  have hplain := (timeouts_contained .silent "n" .main (some 5) (ofTimeouts ())).2
    (fun _ _ _ => rfl) (nest_fickle .silent) (nest_fickleWork .silent)
  rw [recorded_silent] at hplain
  have hcomplete : (Chronicle.log : Chronicle (Unit × List Beginning)).Complete :=
    Chronicle.complete_log
  exact ⟨⟨hguard, hguard.record hcomplete, rfl, hwork, hwork.record hcomplete, rfl,
    hfirst hcomplete⟩, hplain.1⟩

end Cluster

end JobCluster
