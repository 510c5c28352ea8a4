import LoadBridge.Proofs.Bridge.Delegate
import LoadBridge.Proofs.Bridge.Plan
import LoadBridge.Proofs.Symbol.Table

/-!
# Bridge — What decides whether objects can be copied

The flags of a class come from the members that the class itself declares
(`SymbolTable.of_flagsOf`), and from nothing else: neither its parents nor the configuration have a
say.  The hooks of the Interface follow from the flags (`Context.pointerCopy_iff`,
`Context.pointerAssign_iff`), and the Delegate has an assignment where the Interface has the hook
(`Context.assignItem_mem_definitions_iff`).
-/

namespace LoadBridge

open Code (Item)

namespace SymbolTable

variable {t : SymbolTable} {c : ClassRecord} {flags : ClassFlags}

/-- The class itself declares a pure virtual member. -/
def DeclaresPure (t : SymbolTable) (c : ClassRecord) : Prop :=
  ∃ m, t.Declares c m ∧ m.isPureVirtual = true

/-- The class itself declares a public copy constructor. -/
def DeclaresCopy (t : SymbolTable) (c : ClassRecord) : Prop :=
  ∃ m, t.Declares c m ∧ m.isPublic = true ∧ isCopyConstructor c m = true

/-- The class itself declares a public assignment operator. -/
def DeclaresAssignment (t : SymbolTable) (c : ClassRecord) : Prop :=
  ∃ m, t.Declares c m ∧ m.isPublic = true ∧ isAssignmentOperator c m = true

/-- **The flags of a class tell what it declares itself.** -/
theorem of_flagsOf (h : t.flagsOf c = .ok flags) :
    (flags.hasPureVirtual = true ↔ t.DeclaresPure c) ∧
      (flags.hasCopyConstructor = true ↔ t.DeclaresCopy c) ∧
      (flags.hasAssignmentOperator = true ↔ t.DeclaresAssignment c) := by
  obtain ⟨members, hmembers, rfl⟩ := map_eq_ok.1 h
  simp only [DeclaresPure, DeclaresCopy, DeclaresAssignment, declares_iff hmembers,
    List.any_eq_true, Bool.and_eq_true, and_self]

end SymbolTable

namespace Context

variable {ctx : Context} {c : ClassRecord} {plan : ClassPlan}

theorem flagsOf_of_planClass (h : ctx.planClass c = .ok plan) :
    ctx.table.flagsOf c = .ok plan.flags := by
  obtain ⟨_, _, _, _, -, hflags, -, -, rfl⟩ := planClass_eq_ok_iff.1 h
  exact hflags

/-- The Interface has the hook that copies where the class declares a public copy constructor and
nothing that is pure virtual. -/
theorem pointerCopy_iff (h : ctx.planClass c = .ok plan) :
    (ctx.interfaceOf plan).pointerCopy = true ↔
      ctx.table.DeclaresCopy c ∧ ¬ ctx.table.DeclaresPure c := by
  obtain ⟨hpure, hcopy, -⟩ := SymbolTable.of_flagsOf (flagsOf_of_planClass h)
  rw [← hpure, ← hcopy]
  simp [interfaceOf, ClassFlags.copyable]

/-- The Interface has the hook that assigns where the class declares a public assignment operator
and nothing that is pure virtual. -/
theorem pointerAssign_iff (h : ctx.planClass c = .ok plan) :
    (ctx.interfaceOf plan).pointerAssign = true ↔
      ctx.table.DeclaresAssignment c ∧ ¬ ctx.table.DeclaresPure c := by
  obtain ⟨hpure, -, hassign⟩ := SymbolTable.of_flagsOf (flagsOf_of_planClass h)
  rw [← hpure, ← hassign]
  simp [interfaceOf, ClassFlags.assignable]

/-- The assignment of a Delegate is no function with statements only. -/
theorem assignItem_ne_function (ctx : Context) (p : ClassPlan) (header : String)
    (body : List String) : ctx.assignItem p ≠ .function header body := by
  cases body with
  | nil => exact nofun
  | cons statement rest => exact nofun

theorem assignItem_ne_copyItem (ctx : Context) (p : ClassPlan) :
    ctx.assignItem p ≠ ctx.copyItem p := by
  intro h
  cases h

/-- The destructor of a Delegate begins with another question than its assignment. -/
theorem assignItem_not_mem_destructor (ctx : Context) (p : ClassPlan) (delegate : String) :
    ctx.assignItem p ∉ (delegateDestructor delegate).items := by
  intro h
  obtain ⟨-, hbody, -⟩ := Item.block.inj (List.mem_singleton.1 h)
  have hquestion := (Code.block.inj (Code.seq.inj hbody).1).1
  exact absurd hquestion (by decide)

/-- **A Delegate has an assignment where it is to be assignable.** -/
theorem assignItem_mem_definitions_iff (ctx : Context) (p : ClassPlan)
    (copyable assignable : Bool) :
    ctx.assignItem p ∈ (ctx.delegateOf p copyable assignable).definitions.items ↔
      assignable = true := by
  rw [delegateOf, items_delegateDefinitions]
  constructor
  · intro h
    by_contra hassignable
    simp only [lifeItems, hassignable, List.mem_append, List.mem_map] at h
    rcases h with (((hhook | hprotocol) | ⟨m, -, hmethod⟩) | ⟨slot, -, hslot⟩) | hlife
    · simp [hookDefinitions, assignItem_ne_function] at hhook
    · rw [InterfaceProtocol.definitions] at hprotocol
      split at hprotocol
      · cases hprotocol
      · exact assignItem_ne_function _ _ _ _ (List.mem_singleton.1 hprotocol)
    · exact assignItem_ne_function _ _ _ _ hmethod.symm
    · cases hslot
    · simp [adoptingItem, getterItem, assignItem_ne_function, assignItem_ne_copyItem,
        assignItem_not_mem_destructor] at hlife
  · rintro rfl
    simp [lifeItems]

end Context

end LoadBridge
