import Mathlib
import LoadBridge.Bridge.Plan
import LoadBridge.Proofs.Outcome

/-!
# Bridge — What a plan consists of

A plan that succeeds belongs to a class with generated names, and its parts are made from the flags
and the members of the class (`planClass_eq_ok_iff`).
-/

namespace LoadBridge

theorem trust_eq_ok_iff {α : Type} {x : Except SymbolError α} {a : α} :
    trust x = .ok a ↔ x = .ok a := by
  cases x with
  | error e => exact ⟨fun h => (nomatch h), fun h => (nomatch h)⟩
  | ok b => exact ⟨fun h => congrArg _ (Except.ok.inj h), fun h => congrArg _ (Except.ok.inj h)⟩

theorem trust_eq_error_iff {α : Type} {x : Except SymbolError α} {e : BridgeError} :
    trust x = .error e ↔ ∃ fault, x = .error fault ∧ e = .symbol fault := by
  cases x with
  | error fault =>
      refine ⟨fun h => ⟨fault, rfl, (Except.error.inj h).symm⟩, ?_⟩
      rintro ⟨_, h, rfl⟩
      exact congrArg _ (congrArg _ (Except.error.inj h))
  | ok a => exact ⟨fun h => (nomatch h), fun ⟨_, h, _⟩ => (nomatch h)⟩

namespace Context

/-- **A plan that succeeds**, taken apart. -/
theorem planClass_eq_ok_iff {ctx : Context} {c : ClassRecord} {plan : ClassPlan} :
    ctx.planClass c = .ok plan ↔ ∃ names flags members items,
      ctx.names.get? c.qualifiedName = some names ∧ ctx.table.flagsOf c = .ok flags ∧
      ctx.collectMembers c = .ok members ∧ members.mapM (ctx.planMember c flags) = .ok items ∧
      plan =
        { record := c, names, flags
          parents := ctx.parentsOf c
          loadedAncestors := ctx.loadedAncestors c
          hasPublicConstructor := members.any (isFactoryConstructor c)
          items := items.flatten } := by
  rw [planClass]
  constructor
  · intro h
    split at h
    · cases h
    · next names hnames =>
      obtain ⟨flags, hflags, h⟩ := bind_eq_ok.1 (trust_eq_ok_iff.1 h)
      obtain ⟨members, hmembers, h⟩ := bind_eq_ok.1 h
      obtain ⟨items, hitems, h⟩ := bind_eq_ok.1 h
      exact ⟨names, flags, members, items, hnames, hflags, hmembers, hitems,
        (Except.ok.inj h).symm⟩
  · rintro ⟨names, flags, members, items, hnames, hflags, hmembers, hitems, rfl⟩
    rw [hnames]
    refine trust_eq_ok_iff.2 (bind_eq_ok.2 ⟨flags, hflags, bind_eq_ok.2 ⟨members, hmembers, ?_⟩⟩)
    exact bind_eq_ok.2 ⟨items, hitems, rfl⟩

/-- A plan has the names of its class and the parents and ancestors that the context finds. -/
theorem of_planClass {ctx : Context} {c : ClassRecord} {plan : ClassPlan}
    (h : ctx.planClass c = .ok plan) : ctx.names.get? c.qualifiedName = some plan.names ∧
      plan.parents = ctx.parentsOf c ∧ plan.loadedAncestors = ctx.loadedAncestors c := by
  obtain ⟨_, _, _, _, hnames, -, -, -, rfl⟩ := planClass_eq_ok_iff.1 h
  exact ⟨hnames, rfl, rfl⟩

/-- A plan is that of its class. -/
theorem record_of_planClass {ctx : Context} {c : ClassRecord} {plan : ClassPlan}
    (h : ctx.planClass c = .ok plan) : plan.record = c := by
  obtain ⟨_, _, _, _, -, -, -, -, rfl⟩ := planClass_eq_ok_iff.1 h
  rfl

/-- Only a class with generated names is planned. -/
theorem planClass_ne_unregistered {ctx : Context} {c : ClassRecord} {names : GeneratedNames}
    (hnames : ctx.names.get? c.qualifiedName = some names) (name : String) :
    ctx.planClass c ≠ .error (.unregistered name) := by
  rw [planClass, hnames]
  intro h
  obtain ⟨_, -, h⟩ := trust_eq_error_iff.1 h
  cases h

end Context

end LoadBridge
