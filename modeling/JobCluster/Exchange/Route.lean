import JobCluster.Exchange.Basic
/-!
# Resource routes

A process instance that listens on a resource holds a route for its address and method. No two
instances hold routes for the same resource.

Main results:

- `Routes.get?_add`: what a successful addition leaves behind;
- `Routes.get?_release`: releasing an instance takes out its routes and no others.
-/

namespace JobCluster

/-- A resource: an address and a method. -/
structure RouteKey where
  url : String
  method : String
  deriving DecidableEq, Repr, Inhabited

instance : KeyOrder RouteKey :=
  .comap (fun k => (k.url, k.method)) fun ⟨_, _⟩ ⟨_, _⟩ h => by simpa using h

/-- The wording of a resource. -/
def RouteKey.text (k : RouteKey) : String := k.url ++ "~" ++ k.method

/-- An instance that listens on a resource. -/
structure ResourceRoute where
  key : RouteKey
  /-- Picks the activity that receives the request. -/
  pickSelector : String
  instanceId : InstanceId
  /-- Where the response goes. -/
  channel : String
  deriving DecidableEq, Repr, Inhabited

/-- The routes of a node. -/
structure Routes where
  table : Table RouteKey ResourceRoute := ∅
  deriving DecidableEq, Repr, Inhabited

namespace Routes

/-- The route of a resource. -/
def get? (r : Routes) (key : RouteKey) : Option ResourceRoute := r.table.get? key

/-- Adds a route. An instance may replace its own route, but not that of another. -/
def add (r : Routes) (route : ResourceRoute) : Except RegistryError Routes :=
  match r.get? route.key with
  | some existing =>
    if existing.instanceId ≠ route.instanceId then
      .error (.routeConflict route.key.url route.key.method existing.instanceId)
    else .ok { table := r.table.insert route.key route }
  | none => .ok { table := r.table.insert route.key route }

/-- Takes the route of a resource out. -/
def remove (r : Routes) (key : RouteKey) : Option ResourceRoute × Routes :=
  (r.get? key, { table := r.table.erase key })

/-- The routes without those of an instance. -/
def release (r : Routes) (id : InstanceId) : Routes where
  table := r.table.filter fun _ route => decide (route.instanceId ≠ id)

/-- The number of routes. -/
def size (r : Routes) : Nat := r.table.size

/-- A route that is added is found under its key. -/
theorem get?_add {r s : Routes} {route : ResourceRoute} (h : r.add route = .ok s)
    (key : RouteKey) : s.get? key = if route.key = key then some route else r.get? key := by
  rw [add] at h
  split at h
  · split at h
    · simp at h
    · obtain rfl := Except.ok.inj h
      simp [get?]
  · obtain rfl := Except.ok.inj h
    simp [get?]

/-- The routes that are kept are those of other instances. -/
@[simp] theorem get?_release (r : Routes) (id : InstanceId) (key : RouteKey) :
    (r.release id).get? key = (r.get? key).filter fun route => decide (route.instanceId ≠ id) := by
  simp [get?, release]

end Routes

end JobCluster
