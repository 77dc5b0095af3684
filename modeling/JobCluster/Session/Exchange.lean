import JobCluster.Session.Scene
/-!
# Calls on exchanges

The steps that call the operation catalog, the exchange registry and the routes of a node, and
those that reach an exchange by a handle, which outlives the registration of the exchange.
-/

namespace JobCluster.Session

variable {η : Type}

/-! ## The operation catalog -/

/-- A call on an operation catalog. -/
inductive CatalogCall
  | register (key : OperationKey) (pattern : InteractionPattern)
  | find (key : OperationKey)
  | unregister (service : String)
  | clear
  | size
  deriving DecidableEq, Repr

/-- Carries out a call. -/
def CatalogCall.run (n : NodeName) (call : CatalogCall) (c : World η) : Answer × World η :=
  let catalog := (c.node n).catalog
  let become := fun catalog : Catalog => c.modifyNode n fun x => { x with catalog }
  match call with
  | .register key pattern =>
    match catalog.register key pattern with
    | .ok catalog => (.done .nothing, become catalog)
    | .error e => (.failed (.catalog e), c)
  | .find key => (.value (.catalogPattern (catalog.pattern? key)), c)
  | .unregister service =>
    let (count, catalog) := catalog.unregister service
    (.value (.number count), become catalog)
  | .clear => (.value .nothing, become {})
  | .size => (.value (.size catalog.size), c)

/-! ## Changing an exchange -/

/-- The fields of an exchange that a step sets. -/
structure ExchangeChange where
  pattern : Option InteractionPattern := none
  operation : Option String := none
  correlationStatus : Option CorrelationStatus := none
  style : Option InvocationStyle := none
  fault : Option String := none
  failure : Option FailureType := none
  /-- What is recorded with the fault or the failure. -/
  explanation : Option String := none
  ackType : Option AckType := none
  timeoutMillis : Option Nat := none
  boundTo : Option InstanceId := none
  channel : Option String := none
  properties : Table String String := ∅
  deriving DecidableEq, Repr, Inhabited

namespace ExchangeChange

/-- Records the fault of a change, if it has one. -/
def applyFault (change : ExchangeChange) (e : Exchange) : Exchange :=
  match change.fault with
  | some fault => e.setFault fault change.explanation
  | none => e

/-- Records the failure of a change, if it has one. -/
def applyFailure (change : ExchangeChange) (e : Exchange) : Exchange :=
  match change.failure with
  | some failure => e.setFailure failure change.explanation
  | none => e

/-- Sets the fields of a change and leaves all others. -/
def apply (change : ExchangeChange) (e : Exchange) : Exchange :=
  let e := change.applyFailure (change.applyFault e)
  { e with
    pattern := change.pattern <|> e.pattern
    operation := change.operation <|> e.operation
    correlationStatus := change.correlationStatus.getD e.correlationStatus
    style := change.style.getD e.style
    ackType := change.ackType <|> e.ackType
    timeoutMillis := change.timeoutMillis <|> e.timeoutMillis
    boundTo := change.boundTo <|> e.boundTo
    channel := change.channel <|> e.channel
    properties := change.properties.entries.foldl (fun t x => t.insert x.1 x.2) e.properties }

end ExchangeChange

/-! ## The registry -/

/-- A call on an exchange registry. -/
inductive RegistryCall
  /-- Creates an exchange, sets some of its fields and gives it a handle. -/
  | create (id : ExchangeId) (direction : Direction) (handle : String) (change : ExchangeChange)
  | get (id : ExchangeId)
  | has (id : ExchangeId)
  | advance (id : ExchangeId) (target : ExchangeStatus)
  | complete (id : ExchangeId) (status : ExchangeStatus)
  | fail (id : ExchangeId) (failure : FailureType) (explanation : Option String)
  | bind (id : ExchangeId) (key : OperationKey)
  | release (id : ExchangeId)
  | releaseInstance (id : InstanceId)
  /-- Sweeps, by the clock or at the given time. -/
  | sweep (time : Option Time)
  | forceSweep (time : Option Time)
  /-- What the recurring sweep of the coordinator does while the clock stands still. -/
  | recurringSweep
  | stats
  deriving DecidableEq, Repr

namespace RegistryCall

/-- The answer to a call that changes the registry whatever happens. -/
def change {α : Type} (c : World η) (n : NodeName) (value : α → Value) (result : α × Registry) :
    Answer × World η :=
  (.value (value result.1), c.modifyRegistry n fun _ => result.2)

/-- Creates an exchange as part of a transaction. -/
def createIn (n : NodeName) (tx : TxId) (id : ExchangeId) (direction : Direction)
    (handle : String) (change : ExchangeChange) (c : World η) : Answer × World η :=
  match c.createExchange n tx id direction with
  | (.error e, c) => (.failed (.registry e), c)
  | (.ok slot, c) =>
    let c := c.modifyRegistry n fun r => r.modifyExchange slot change.apply
    let c := c.modifyOutside fun s =>
      { s with handles := s.handles.insert handle (.registered n slot) }
    (.done (.ofOption (fun e => .createdAt e.createdAt) ((c.node n).registry.exchange? slot)), c)

/-- Carries out a call. -/
def run (place : Place) (call : RegistryCall) (c : World η) : Answer × World η :=
  let n := place.node
  let r := (c.node n).registry
  match call with
  | .create id direction handle change =>
    match place.tx with
    | none => (.refused .noTransaction, c)
    | some tx => createIn n tx id direction handle change c
  | .get id => (.value (.ofOption (fun e => .snapshot e.snapshot) (r.get? id)), c)
  | .has id => (.value (.flag (r.get? id).isSome), c)
  | .advance id target =>
    replied .registry (fun _ => .nothing)
      (c.updateRegistry n ((r.advance id target).map fun r => ((), r)))
  | .complete id status => replied .registry .completion (c.updateRegistry n (r.complete id status))
  | .fail id failure explanation =>
    replied .registry .completion (c.updateRegistry n (r.fail id failure explanation))
  | .bind id key =>
    replied .registry .pattern (c.updateRegistry n (r.bind (c.node n).bindingCatalog id key))
  | .release id => change c n .flag (r.release id)
  | .releaseInstance id => change c n .number (r.releaseInstance id)
  | .sweep time => change c n .sweep (r.sweep (time.getD c.clock))
  | .forceSweep time => change c n .sweep (r.forceSweep (time.getD c.clock))
  | .recurringSweep =>
    let r := if c.coordinates n then (r.sweep c.clock).2 else r
    (.value (.number r.size), c.modifyRegistry n fun _ => r)
  | .stats =>
    (.value (.registry
      { stats := r.stats, size := r.size, routes := r.routes.size, ttl := r.ttl
        sweepInterval := r.sweepInterval }), c)

end RegistryCall

/-! ## Routes -/

/-- A call on the routes of a node. -/
inductive RouteCall
  | add (route : ResourceRoute)
  | get (key : RouteKey)
  | remove (key : RouteKey)
  | release (id : InstanceId)
  | size
  deriving DecidableEq, Repr

/-- Carries out a call. -/
def RouteCall.run (n : NodeName) (call : RouteCall) (c : World η) : Answer × World η :=
  let routes := (c.node n).registry.routes
  let become := fun routes : Routes => c.modifyRegistry n fun r => { r with routes }
  match call with
  | .add route =>
    match routes.add route with
    | .ok routes => (.done .nothing, become routes)
    | .error e => (.failed (.registry e), c)
  | .get key => (.value (.ofOption .route (routes.get? key)), c)
  | .remove key =>
    let (route, routes) := routes.remove key
    (.value (.ofOption .route route), become routes)
  | .release id =>
    let rest := routes.release id
    (.value (.number (routes.size - rest.size)), become rest)
  | .size => (.value (.number routes.size), c)

/-! ## Handles -/

/-- A call on an exchange that a handle stands for. -/
inductive ExchangeCall
  | set (change : ExchangeChange)
  /-- Shows the exchange with some of its properties. -/
  | info (keys : List String)
  | advance (target : ExchangeStatus)
  | complete (status : ExchangeStatus)
  deriving DecidableEq, Repr

/-- Carries out a call, and tells what has become of the exchange. -/
def ExchangeCall.run (call : ExchangeCall) (e : Exchange) : Answer × Exchange :=
  match call with
  | .set change => (.value .nothing, change.apply e)
  | .info keys => (.value (.exchange e (keys.map fun key => (key, e.properties.get? key))), e)
  | .advance target =>
    match e.advance target with
    | .ok e => (.done .nothing, e)
    | .error error => (.failed (.registry error), e)
  | .complete status =>
    match e.complete status with
    | .ok (completion, e) => (.done (.completion completion), e)
    | .error error => (.failed (.registry error), e)

/-- What is done with a handle. -/
inductive HandleCall
  /-- Makes an exchange outside all registries. -/
  | keep (e : Exchange)
  /-- Takes the handle back. -/
  | forget
  | on (call : ExchangeCall)
  deriving DecidableEq, Repr

namespace HandleCall

/-- The exchange that a handle stands for. -/
def exchange? (c : World η) : ExchangeHandle → Option Exchange
  | .registered n slot => (c.node n).registry.exchange? slot
  | .loose slot => c.outside.loose[slot]?

/-- Puts an exchange in the place of the one that a handle stands for. -/
def setExchange (c : World η) (e : Exchange) : ExchangeHandle → World η
  | .registered n slot => c.modifyRegistry n fun r => r.setExchange slot e
  | .loose slot => c.modifyOutside fun s => { s with loose := s.loose.set slot e }

/-- Keeps an exchange outside all registries. -/
def keepLoose (name : String) (e : Exchange) (s : Scene) : Scene :=
  { s with
    loose := s.loose ++ [e]
    handles := s.handles.insert name (.loose s.loose.length) }

/-- Does something with the handle of the given name. -/
def run (name : String) (what : HandleCall) (c : World η) : Answer × World η :=
  match what with
  | .keep e => (.value .nothing, c.modifyOutside (keepLoose name e))
  | .forget =>
    (.value (.flag (c.outside.handles.contains name)),
      c.modifyOutside fun s => { s with handles := s.handles.erase name })
  | .on call =>
    match c.outside.handles.get? name with
    | none => (.refused .unknownExchange, c)
    | some h =>
      match exchange? c h with
      | none => (.refused .unknownExchange, c)
      | some e =>
        let (answer, e) := call.run e
        (answer, setExchange c e h)

end HandleCall

end JobCluster.Session
