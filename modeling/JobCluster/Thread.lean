import JobCluster.Table
/-!
# Threads

Work is done on threads, and a transaction belongs to the thread that began it.
-/

namespace JobCluster

/-- The name under which the cluster knows a node. -/
abbrev NodeName := String

/-- A thread of execution. -/
inductive Thread
  /-- The thread of the caller. -/
  | main
  /-- A further thread of the caller. -/
  | named (name : String)
  /-- The thread on which a node runs its tasks. -/
  | worker (node : NodeName)
  deriving DecidableEq, Repr, Inhabited

/-- A pair that tells threads apart. -/
def Thread.key : Thread → Nat × String
  | .main => (0, "")
  | .named name => (1, name)
  | .worker node => (2, node)

instance : KeyOrder Thread := .comap Thread.key fun a b h => by
  cases a <;> cases b <;> simp_all [Thread.key]

end JobCluster
