import LoadBridge.Bridge.Hierarchy
import LoadBridge.Bridge.Verdict

/-!
# Bridge — The load set

The classes that are loaded: those asked for that are accepted, and, where the configuration asks
for it, their accepted ancestors.  They are generated in an order in which every class comes after
its loaded ancestors.
-/

namespace LoadBridge.Context

/-- The classes whose name is accepted. -/
def acceptedIds (ctx : Context) : List RecordId :=
  (ctx.table.classes.filter fun c => (ctx.checkClass c.qualifiedName).isAccepted).map
    ClassRecord.id

/-- The classes asked for by name that are accepted, in order. -/
def requestedIds (ctx : Context) : List RecordId :=
  ctx.config.requestedClasses.filterMap fun name =>
    if (ctx.checkClass name).isAccepted then (ctx.table.classNamed? name).map ClassRecord.id
    else none

/-- The parents that are loaded with a class. -/
def discovered (ctx : Context) (id : RecordId) : List RecordId :=
  if ctx.config.load.parentClasses then ctx.table.basesOf id else []

/-- The classes to load, in the order of their discovery. -/
def loadSetIds (ctx : Context) : List RecordId :=
  Graph.preorder ctx.discovered ctx.requestedIds ctx.acceptedIds

/-- The classes to load, in the order of their discovery. -/
def loadSet (ctx : Context) : List ClassRecord := ctx.loadSetIds.filterMap ctx.table.class?

/-- The notices of the classes asked for that are not accepted. -/
def loadNotices (ctx : Context) : List Notice :=
  ctx.config.requestedClasses.filterMap fun name =>
    match ctx.checkClass name with
    | .accepted => none
    | .rejected reason => some ⟨.classNotLoadable, name, reason.text⟩

/-- These classes, each after those of its ancestors that are among them. -/
def emissionOrder (ctx : Context) (ids : List RecordId) : List ClassRecord :=
  (Graph.postorder ctx.table.basesOf (ids.map .enter) ids).filterMap ctx.table.class?

/-- The first of several classes with one name. -/
def firstOfName (classes : List ClassRecord) : List ClassRecord :=
  classes.eraseDupsBy fun a b => a.qualifiedName == b.qualifiedName

end LoadBridge.Context
