/-!
# Task IDs

A `PStask_ID_t` packs a node ID into its upper and a process ID into its lower
32 bits.  The model keeps the two halves apart.  A node half of `-1` stands for
the local node, and a task ID without process ID addresses the daemon of its
node.
-/

namespace Psmgmt

/-- The two halves of a `PStask_ID_t`. -/
structure TaskId where
  node : Int
  pid : Int
  deriving DecidableEq, Repr

namespace TaskId

/-- `PSC_getID()` on a node whose own ID is `myID`. -/
def getID (myID : Int) (tid : TaskId) : Int :=
  if tid.node = -1 then myID else tid.node

/-- `PSC_getPID()`. -/
def getPID (tid : TaskId) : Int := tid.pid

/-- `PSC_getTID()` on a node whose own ID is `myID`. -/
def getTID (myID node pid : Int) : TaskId :=
  { node := if node = -1 then myID else node
    pid := pid }

end TaskId

end Psmgmt
