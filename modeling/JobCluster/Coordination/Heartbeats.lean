import JobCluster.Ident
/-!
# Heartbeats

When each node of the cluster was last heard from.

Main results:

- `Heartbeats.last?_heartbeat`, `Heartbeats.last?_observe`: each operation through the look-up;
- `Heartbeats.mem_staleNodes_iff`: which nodes are stale.
-/

namespace JobCluster

/-- When each known node was last heard from. -/
structure Heartbeats where
  last : Table NodeId Time := ∅
  deriving DecidableEq, Repr, Inhabited

namespace Heartbeats

/-- When the node was last heard from. -/
def last? (h : Heartbeats) (node : NodeId) : Option Time := h.last.get? node

/-- Records that a node was heard from; an earlier time never replaces a later one. -/
def heartbeat (h : Heartbeats) (node : NodeId) (time : Time) : Heartbeats where
  last := h.last.insert node (match h.last? node with
    | some before => max before time
    | none => time)

/-- Begins to watch a node that is known from elsewhere; one that was never heard from counts as
heard from at the given time. -/
def observe (h : Heartbeats) (node : NodeId) (time : Time) : Heartbeats where
  last := h.last.insert node ((h.last? node).getD time)

/-- Begins to watch several nodes. -/
def observeAll (h : Heartbeats) (nodes : List NodeId) (time : Time) : Heartbeats :=
  nodes.foldl (fun h node => h.observe node time) h

/-- The known nodes, in order. -/
def nodes (h : Heartbeats) : List NodeId := h.last.keys

/-- Whether the node, last heard from at the given time, counts as dead to another one. -/
def isStale (now staleAfter : Time) (me node : NodeId) (last : Time) : Bool :=
  node != me && decide (staleAfter < now - last)

/-- The other nodes that have been silent for longer than the given span, in order. -/
def staleNodes (h : Heartbeats) (now staleAfter : Time) (me : NodeId) : List NodeId :=
  (h.last.filter fun node last => isStale now staleAfter me node last).keys

/-- Ceases to watch a node. -/
def forget (h : Heartbeats) (node : NodeId) : Heartbeats where
  last := h.last.erase node

/-- The number of known nodes. -/
def size (h : Heartbeats) : Nat := h.last.size

/-- A heartbeat is the last one of its node, unless a later one has been heard already. -/
@[simp] theorem last?_heartbeat (h : Heartbeats) (node other : NodeId) (time : Time) :
    (h.heartbeat node time).last? other =
      if node = other then some (match h.last? node with
        | some before => max before time
        | none => time)
      else h.last? other := by
  simp [heartbeat, last?]

/-- A node that is observed is watched from then on, if it was not before. -/
@[simp] theorem last?_observe (h : Heartbeats) (node other : NodeId) (time : Time) :
    (h.observe node time).last? other =
      if node = other then some ((h.last? node).getD time) else h.last? other := by
  simp [observe, last?]

/-- A node that is forgotten is watched no longer. -/
@[simp] theorem last?_forget (h : Heartbeats) (node other : NodeId) :
    (h.forget node).last? other = if other = node then none else h.last? other := by
  simp [forget, last?]

/-- The stale nodes are those whose last heartbeat is stale. -/
theorem mem_staleNodes_iff (h : Heartbeats) (now staleAfter : Time) (me node : NodeId) :
    node ∈ h.staleNodes now staleAfter me ↔
      ∃ last, h.last? node = some last ∧ isStale now staleAfter me node last = true := by
  simp only [staleNodes, Table.keys, List.mem_map, Prod.exists, exists_and_right, exists_eq_right,
    Table.mem_entries_iff, Table.get?_filter, Option.filter_eq_some_iff, last?]

end Heartbeats

end JobCluster
