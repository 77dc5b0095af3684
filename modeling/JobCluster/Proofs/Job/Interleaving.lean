import JobCluster.Proofs.Job.RunStep
/-!
# Overlapping runs of one job

Any number of runs of one job may be under way at once, on one node or on several, and between two
steps of a run anything else may happen: steps of other runs, calls on the job store, and whatever
the rest of the cluster and the application do.

Main results:

- `Overlap.Steps`: the histories of overlapping runs;
- `Overlap.steps_play`: whatever is played move by move is a history.
-/

namespace JobCluster

variable {η ω : Type}

/-! ## Histories -/

/-- What a call on the job store means to the job. -/
def StoreCall.event (id : JobId) (s : JobStore) : StoreCall → JobEvent
  | .cancel j =>
    match s.cancel j with
    | .ok (true, _) => if j = id then .cancelled else .quiet
    | _ => .quiet
  | a => if (s.heldBy? id).isSome ∧ ((a.apply s).heldBy? id).isNone then .reset else .quiet

/-- What may become of a cluster around the runs of a job, apart from the job store. Everything may
change, but nodes keep their identifiers, transactions are numbered in order, and nobody has a
transaction drop the job whose run did not register this. -/
structure Cluster.Around (id : JobId) (c d : Cluster η ω) : Prop where
  jobs : d.jobs = c.jobs
  nodeId : ∀ n, d.nodeId n = c.nodeId n
  nextTx : c.nextTx ≤ d.nextTx
  drops : ∀ tx t, d.transaction? tx = some t → ∀ x ∈ t.synchronizers, x.callback.Drops id →
    ∃ t', c.transaction? tx = some t' ∧ x ∈ t'.synchronizers

/-- A cluster with runs of one job, in the order in which they began. -/
structure Overlap (η ω : Type) where
  cluster : Cluster η ω
  runs : List (JobRun η) := []

namespace Overlap

/-- Lets a run take its next step. -/
def advance (app : Application η ω) (id : JobId) (o : Overlap η ω) (i : Nat)
    (answer : HandlerAnswer) : Overlap η ω × JobEvent :=
  match o.runs[i]? with
  | none => (o, .quiet)
  | some r =>
    let x := r.advance app id i answer o.cluster
    (⟨x.2.1, o.runs.set i (r.moveTo x.1)⟩, x.2.2)

/-- A step in a history of runs of one job. -/
inductive Step (app : Application η ω) (id : JobId) : Overlap η ω → JobEvent → Overlap η ω → Prop
  /-- A run begins on a node. -/
  | begin {o : Overlap η ω} {n : NodeName} {thread : Thread} {tx : TxId} {d : Cluster η ω}
      (h : o.cluster.begin n thread = (.ok tx, d)) :
      Step app id o .quiet ⟨d, o.runs ++ [{ node := n, thread, tx }]⟩
  /-- A run takes its next step. -/
  | advance {o : Overlap η ω} (i : Nat) (answer : HandlerAnswer) :
      Step app id o (o.advance app id i answer).2 (o.advance app id i answer).1
  /-- A call on the job store that is no step of a run of this job. -/
  | call {o : Overlap η ω} (a : StoreCall) (h : a.Bystanding id) :
      Step app id o (a.event id o.cluster.jobs)
        { o with cluster := { o.cluster with jobs := a.apply o.cluster.jobs } }
  /-- Anything else. -/
  | around {o : Overlap η ω} {d : Cluster η ω} (h : o.cluster.Around id d) :
      Step app id o .quiet { o with cluster := d }

/-- Any number of steps, with what each of them means to the job. -/
inductive Steps (app : Application η ω) (id : JobId) (o : Overlap η ω) :
    List JobEvent → Overlap η ω → Prop
  | refl : Steps app id o [] o
  | tail {p q : Overlap η ω} {events : List JobEvent} {event : JobEvent}
      (init : Steps app id o events p) (last : Step app id p event q) :
      Steps app id o (events ++ [event]) q

/-- A history can be continued by another one. -/
theorem Steps.trans {app : Application η ω} {id : JobId} {o p q : Overlap η ω}
    {first second : List JobEvent} (hfirst : Steps app id o first p)
    (hsecond : Steps app id p second q) : Steps app id o (first ++ second) q := by
  induction hsecond with
  | refl => simpa using hfirst
  | tail _ last ih =>
      rw [← List.append_assoc]
      exact .tail ih last

/-- A step is a history. -/
theorem Step.steps {app : Application η ω} {id : JobId} {o p : Overlap η ω} {event : JobEvent}
    (h : Step app id o event p) : Steps app id o [event] p :=
  .tail .refl h

end Overlap

/-! ## Histories to be played -/

/-- Nothing may happen around a job. -/
theorem Cluster.Around.refl (id : JobId) (c : Cluster η ω) : c.Around id c where
  jobs := rfl
  nodeId _ := rfl
  nextTx := Nat.le_refl _
  drops _ t ht _ hx _ := ⟨t, ht, hx⟩

/-- A transaction that cannot begin leaves nothing behind. -/
theorem Cluster.around_begin_error {c d : Cluster η ω} {n : NodeName} {thread : Thread}
    {e : TxError} (id : JobId) (h : c.begin n thread = (.error e, d)) : c.Around id d := by
  obtain ⟨resource, rfl⟩ := begin_eq_error h
  exact ⟨rfl, fun _ => rfl, Nat.le_succ _, fun _ t ht _ hx _ => ⟨t, ht, hx⟩⟩

/-- A choice of the next step, apart from what the application does around. -/
inductive JobMove
  | begin (node : NodeName) (thread : Thread)
  | advance (run : Nat) (answer : HandlerAnswer)
  | call (a : StoreCall)
  deriving Repr

namespace Overlap

/-- Makes a move. Calls that are steps of runs are not made out of turn. -/
def move (app : Application η ω) (id : JobId) (o : Overlap η ω) : JobMove → Overlap η ω × JobEvent
  | .begin n thread =>
    match o.cluster.begin n thread with
    | (.ok tx, d) => (⟨d, o.runs ++ [{ node := n, thread, tx }]⟩, .quiet)
    | (.error _, d) => ({ o with cluster := d }, .quiet)
  | .advance i answer => o.advance app id i answer
  | .call a =>
    if a.Bystanding id then
      ({ o with cluster := { o.cluster with jobs := a.apply o.cluster.jobs } },
        a.event id o.cluster.jobs)
    else (o, .quiet)

/-- Makes moves one after another. -/
def play (app : Application η ω) (id : JobId) (o : Overlap η ω) :
    List JobMove → Overlap η ω × List JobEvent
  | [] => (o, [])
  | m :: rest =>
    let x := o.move app id m
    let y := x.1.play app id rest
    (y.1, x.2 :: y.2)

/-- A move is one of the steps that are possible. -/
theorem step_move (app : Application η ω) (id : JobId) (o : Overlap η ω) (m : JobMove) :
    Step app id o (o.move app id m).2 (o.move app id m).1 := by
  cases m with
  | begin n thread =>
      rcases h : o.cluster.begin n thread with ⟨e | tx, d⟩
      · simpa only [move, h] using Step.around (Cluster.around_begin_error id h)
      · simpa only [move, h] using Step.begin h
  | advance i answer => exact .advance i answer
  | call a =>
      by_cases ha : a.Bystanding id
      · simpa only [move, if_pos ha] using Step.call a ha
      · simpa only [move, if_neg ha] using Step.around (.refl id o.cluster)

/-- Whatever is played is a history. -/
theorem steps_play (app : Application η ω) (id : JobId) (o : Overlap η ω) (moves : List JobMove) :
    Steps app id o (o.play app id moves).2 (o.play app id moves).1 := by
  induction moves generalizing o with
  | nil => exact .refl
  | cons m rest ih => exact (step_move app id o m).steps.trans (ih _)

end Overlap

/-! ## Two nodes and a job -/

/-- An application that does nothing. -/
def Application.silent : Application Unit Unit where
  callback _ _ _ := pure (.ok ())
  handler _ _ _ _ := pure (.ok ())
  listener _ _ outside := outside

/-- Two nodes that share a store with one job, free to be run. -/
def Overlap.ofJob (first second : NodeName) (id : JobId) : Overlap Unit Unit where
  cluster :=
    { clock := 0
      outside := ()
      jobs := JobStore.put {} { id, details := ⟨"", ∅⟩, state := .pending }
      nodes := Table.ofList
        [(first, .ofSettings { nodeId := ⟨first⟩ }), (second, .ofSettings { nodeId := ⟨second⟩ })] }

/-- Makes moves on two nodes with a job. -/
def Overlap.playJob (moves : List JobMove) : Overlap Unit Unit × List JobEvent :=
  (ofJob "a" "b" ⟨"J"⟩).play .silent ⟨"J"⟩ moves

end JobCluster
