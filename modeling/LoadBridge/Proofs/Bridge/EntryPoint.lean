import LoadBridge.Bridge.Augmentation
import LoadBridge.Proofs.Code.Items

/-!
# Bridge — Entry points

The entry points of a planned class are the pure virtual functions of its Interface.  They are read
off the plan once (`ClassPlan.entryPoints`), and what is written for the class goes by them:

* the Interface declares each of them (`virtuals_interfaceOf`, `items_pureVirtuals`);
* the library's class is given a definition of each that it does not implement by itself
  (`members_augmentationOf`, `items_augmentationOf`).
-/

namespace LoadBridge

open Code (Item)

/-- A pure virtual function of an Interface. -/
inductive EntryPoint where
  | method (callable : PlannedCallable)
  | accessor (field : PlannedField)
  | pointerCopy
  | pointerAssign

/-- The entry points of a planned class, in order. -/
def ClassPlan.entryPoints (p : ClassPlan) : List EntryPoint :=
  p.methods.map .method ++ p.fields.map .accessor ++
    (if p.flags.copyable then [.pointerCopy] else []) ++
    (if p.flags.assignable then [.pointerAssign] else [])

/-- How a side spells the Interface of the class it stands in. -/
def Context.ownInterface (ctx : Context) (p : ClassPlan) : Side → String
  | .generated => p.names.interface.name
  | .library => ctx.interfaceName p.names .library

namespace EntryPoint

/-- The name in the Interface. -/
def name (ctx : Context) : EntryPoint → String
  | .method m => m.interfaceName
  | .accessor f => f.accessor
  | .pointerCopy => ctx.pointerCopyName
  | .pointerAssign => ctx.pointerAssignName

/-- The number of arguments. -/
def arity : EntryPoint → Nat
  | .method m => m.args.length
  | .accessor _ | .pointerCopy => 0
  | .pointerAssign => 1

/-- How it is declared on a side. -/
def signature (ctx : Context) (p : ClassPlan) (side : Side) : EntryPoint → String
  | .method m => ctx.interfaceSignature side m
  | .accessor f => ctx.accessorSignature side f
  | .pointerCopy => ctx.pointerCopySignature (ctx.ownInterface p side)
  | .pointerAssign => ctx.pointerAssignSignature (ctx.ownInterface p side)

/-- Whether the library's class is given a definition: for all but the methods that need no
forwarder. -/
def isAdded : EntryPoint → Bool
  | .method m => m.needsForwarder
  | _ => true

/-- The statements of the definition that the library's class is given. -/
def implementation (ctx : Context) (p : ClassPlan) : EntryPoint → List String
  | .method m => [ctx.forwarderBody m]
  | .accessor f => ctx.accessorBody f
  | .pointerCopy => ["return new " ++ Name.absolute p.qualifiedName ++ "(*this);"]
  | .pointerAssign =>
    [ctx.delegateName p.names .library ++ "* wptr_temp = get_wptr();",
      "*this = *dynamic_cast<" ++ Name.absolute p.qualifiedName ++ "*>(in);",
      "set_wptr(wptr_temp);"]

end EntryPoint

namespace ClassPlan

variable {α : Type} (p : ClassPlan)

/-- The entry points of which the library's class is given a definition. -/
def addedEntryPoints : List EntryPoint := p.entryPoints.filter EntryPoint.isAdded

/-- The methods that implement their entry points by themselves. -/
def keptMethods : List PlannedCallable := p.methods.filter fun m => !m.needsForwarder

theorem map_entryPoints (f : EntryPoint → α) : p.entryPoints.map f =
    p.methods.map (fun m => f (.method m)) ++ p.fields.map (fun x => f (.accessor x)) ++
      (if p.flags.copyable then [f .pointerCopy] else []) ++
      (if p.flags.assignable then [f .pointerAssign] else []) := by
  rw [entryPoints, List.map_append, List.map_append, List.map_append, List.map_map, List.map_map,
    apply_ite (List.map f), apply_ite (List.map f)]
  rfl

theorem map_addedEntryPoints (f : EntryPoint → α) : p.addedEntryPoints.map f =
    p.forwarded.map (fun m => f (.method m)) ++ p.fields.map (fun x => f (.accessor x)) ++
      (if p.flags.copyable then [f .pointerCopy] else []) ++
      (if p.flags.assignable then [f .pointerAssign] else []) := by
  have hfields : (p.fields.map EntryPoint.accessor).filter EntryPoint.isAdded =
      p.fields.map .accessor := List.filter_eq_self.2 (by simp [EntryPoint.isAdded])
  rw [addedEntryPoints, entryPoints, List.filter_append, List.filter_append, List.filter_append,
    hfields, List.filter_map, List.map_append, List.map_append, List.map_append, List.map_map,
    List.map_map]
  cases p.flags.copyable <;> cases p.flags.assignable <;> rfl

/-- **An entry point is added, or it is a method that needs no forwarder.** -/
theorem perm_entryPoints :
    (p.addedEntryPoints ++ p.keptMethods.map EntryPoint.method).Perm p.entryPoints := by
  have hfields : (p.fields.map EntryPoint.accessor).filter (fun e => !e.isAdded) = [] :=
    List.filter_eq_nil_iff.2 (by simp [EntryPoint.isAdded])
  have hkept : p.entryPoints.filter (fun e => !e.isAdded) = p.keptMethods.map .method := by
    rw [entryPoints, List.filter_append, List.filter_append, List.filter_append, List.filter_map,
      hfields, List.append_nil, List.append_assoc]
    refine (congrArg _ ?_).trans (List.append_nil _)
    cases p.flags.copyable <;> cases p.flags.assignable <;> rfl
  rw [← hkept]
  exact List.filter_append_perm _ _

end ClassPlan

namespace Context

variable (ctx : Context) (p : ClassPlan)

/-! ### The Interface -/

/-- The Interface lists its entry points. -/
theorem virtuals_interfaceOf :
    (ctx.interfaceOf p).virtuals = p.entryPoints.map (EntryPoint.name ctx) := by
  rw [ClassPlan.map_entryPoints]
  rfl

@[simp] theorem items_pureVirtual (signature : String) :
    (pureVirtual signature).items = [.line ("virtual " ++ signature ++ " =0;")] :=
  if_neg (by simp)

/-- **The Interface declares each entry point.** -/
theorem items_pureVirtuals : (ctx.pureVirtuals p).items =
    p.entryPoints.map fun e => .line ("virtual " ++ e.signature ctx p .generated ++ " =0;") := by
  rw [ClassPlan.map_entryPoints]
  simp only [pureVirtuals, Code.items_append, Code.items_onlyIf, Code.items_blank, ite_self,
    List.append_nil, items_pureVirtual]
  rw [Code.items_concat_map fun _ => items_pureVirtual _,
    Code.items_concat_map fun _ => items_pureVirtual _]
  rfl

/-! ### The class of the library -/

/-- The library's class is given what it does not have. -/
theorem members_augmentationOf :
    (ctx.augmentationOf p p.flags.copyable p.flags.assignable).members =
      p.addedEntryPoints.map (EntryPoint.name ctx) := by
  rw [ClassPlan.map_addedEntryPoints]
  rfl

/-- **The library's class is given a definition of each entry point that it does not implement by
itself**, declared as in the Interface. -/
theorem items_augmentationOf :
    (ctx.augmentationOf p p.flags.copyable p.flags.assignable).body.items =
      .line "public:" :: p.addedEntryPoints.map fun e =>
        .function (e.signature ctx p .library) (e.implementation ctx p) := by
  rw [ClassPlan.map_addedEntryPoints]
  simp only [augmentationOf, hookBodies, Code.items_append, Code.items_indented, Code.items_onlyIf,
    Code.items_blank, Code.items_function, List.append_nil]
  rw [Code.items_concat_map fun _ => List.append_nil _,
    Code.items_concat_map fun _ => List.append_nil _]
  simp only [List.append_assoc]
  rfl

end Context

end LoadBridge
