import LoadBridge.Ownership.Boundary

/-!
# Ownership — Runs

What the library and the host do at a boundary, as data: six operations, two of which destroy an
object.  A step performs an operation and passes over one that the rules do not allow; a run takes
the steps of a list of operations from the empty boundary.

A teardown destroys objects in a given order.  It skips those that are no longer alive when their
turn comes, since they went with their partner.
-/

namespace LoadBridge

/-- What the library or the host does at the boundary. -/
inductive Operation where
  | createInterface
  | constructViaFactory
  | adopt (i : InterfaceHandle) (adoption : Adoption)
  | materialize (i : InterfaceHandle)
  | destroyDelegate (d : DelegateHandle)
  | destroyInterface (i : InterfaceHandle)
  deriving DecidableEq

/-- What an operation answers: the object it made or found, or the objects it freed. -/
inductive Reply where
  | interface (handle : InterfaceHandle)
  | delegate (handle : DelegateHandle)
  | freed (objects : List Freed)
  deriving DecidableEq

namespace Boundary

/-- Performs an operation. -/
def perform (b : Boundary) : Operation → Except ProtocolError (Reply × Boundary)
  | .createInterface => .ok (.interface b.createInterface.1, b.createInterface.2)
  | .constructViaFactory => .ok (.delegate b.constructViaFactory.1, b.constructViaFactory.2)
  | .adopt i adoption => (b.adopt i adoption).map (Prod.map .delegate id)
  | .materialize i => (b.materialize i).map (Prod.map .delegate id)
  | .destroyDelegate d => (b.destroyDelegate d).map (Prod.map .freed id)
  | .destroyInterface i => (b.destroyInterface i).map (Prod.map .freed id)

/-- Performs an operation, or passes over it if it is not allowed. -/
def step (b : Boundary) (op : Operation) : Boundary :=
  match b.perform op with
  | .ok (_, b') => b'
  | .error _ => b

/-- The boundary after these operations. -/
def run (ops : List Operation) : Boundary := ops.foldl step empty

/-! ### Objects of either kind -/

/-- Whether an object was ever made. -/
def isCreated (b : Boundary) : Freed → Bool
  | .interface i => decide (i.index < b.interfaces.length)
  | .delegate d => decide (d.index < b.delegates.length)

def isAlive (b : Boundary) : Freed → Bool
  | .interface i => b.isInterfaceAlive i
  | .delegate d => b.isDelegateAlive d

/-- The objects that are alive: the Interface objects, then the Delegates. -/
def liveObjects (b : Boundary) : List Freed :=
  b.liveInterfaces.map .interface ++ b.liveDelegates.map .delegate

def destroy (b : Boundary) : Freed → Except ProtocolError (List Freed × Boundary)
  | .interface i => b.destroyInterface i
  | .delegate d => b.destroyDelegate d

/-- Destroys the objects of `order` one after the other, each only if it is alive in its turn. -/
def teardown (b : Boundary) : List Freed → Except ProtocolError Boundary
  | [] => .ok b
  | x :: rest =>
    if b.isAlive x then do
      let (_, b') ← b.destroy x
      b'.teardown rest
    else b.teardown rest

end Boundary

end LoadBridge
