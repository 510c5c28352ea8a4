import LoadBridge.Bridge.Generation
import LoadBridge.Proofs.Bridge.Plan
import LoadBridge.Proofs.Pairing

/-!
# Bridge — What a run consists of

A run that succeeds has planned its classes one after the other and then wrapped its functions, in
the context in which the load set is registered.  Its result is assembled from what the plans and
the functions give (`generate_eq_ok_iff`).
-/

namespace LoadBridge

namespace Context

/-- The context in which a run generates code: the names of its load set are registered. -/
def ofRun (table : SymbolTable) (config : Config) : Context :=
  (new table config).register ((new table config).loadSet.map fun c => ⟨c.scope, c.name⟩)

/-- The classes that a run generates, in order. -/
def runOrder (table : SymbolTable) (config : Config) : List ClassRecord :=
  firstOfName ((ofRun table config).emissionOrder ((new table config).loadSet.map ClassRecord.id))

@[simp] theorem outputOf_factories (ctx : Context) (counter : Nat) (c : ClassRecord)
    (plan : ClassPlan) :
    (ctx.outputOf counter c plan).factories = ctx.factoriesOf counter plan := rfl

theorem generateClass_eq_ok_iff {ctx : Context} {counter : Nat} {c : ClassRecord}
    {output : ClassOutput} : ctx.generateClass counter c = .ok output ↔
      ∃ plan, ctx.planClass c = .ok plan ∧ output = ctx.outputOf counter c plan := by
  rw [generateClass, bind_eq_ok]
  refine exists_congr fun plan => and_congr_right fun _ => ?_
  exact ⟨fun h => (Except.ok.inj h).symm, fun h => congrArg Except.ok h.symm⟩

theorem generateClasses_nil {ctx : Context} {counter : Nat} :
    ctx.generateClasses counter [] = .ok ([], counter) := rfl

/-- The classes after a class are numbered after its factories. -/
theorem generateClasses_cons_eq_ok_iff {ctx : Context} {counter next : Nat} {c : ClassRecord}
    {rest : List ClassRecord} {outputs : List ClassOutput} :
    ctx.generateClasses counter (c :: rest) = .ok (outputs, next) ↔
      ∃ output others, ctx.generateClass counter c = .ok output ∧
        ctx.generateClasses (counter + output.factories.records.length) rest =
          .ok (others, next) ∧ outputs = output :: others := by
  rw [generateClasses, bind_eq_ok]
  refine ⟨?_, ?_⟩
  · rintro ⟨output, hc, h⟩
    obtain ⟨⟨others, next'⟩, hrest, heq⟩ := bind_eq_ok.1 h
    obtain ⟨rfl, rfl⟩ := Prod.mk.inj (Except.ok.inj heq)
    exact ⟨output, others, hc, hrest, rfl⟩
  · rintro ⟨output, others, hc, hrest, rfl⟩
    exact ⟨output, hc, bind_eq_ok.2 ⟨(others, next), hrest, rfl⟩⟩

/-- All that is generated for `c` is made from its plan. -/
def Generates (ctx : Context) (c : ClassRecord) (output : ClassOutput) : Prop :=
  ∃ counter plan, ctx.planClass c = .ok plan ∧ output = ctx.outputOf counter c plan

theorem Generates.target {ctx : Context} {c : ClassRecord} {output : ClassOutput}
    (h : ctx.Generates c output) : output.target = c.qualifiedName := by
  obtain ⟨_, _, -, rfl⟩ := h
  rfl

theorem Generates.names {ctx : Context} {c : ClassRecord} {output : ClassOutput}
    (h : ctx.Generates c output) : ctx.names.get? c.qualifiedName = some output.names := by
  obtain ⟨_, _, hplan, rfl⟩ := h
  obtain ⟨names, _, _, _, hnames, -, -, -, rfl⟩ := planClass_eq_ok_iff.1 hplan
  exact hnames

/-- **The classes are generated one by one**, in order. -/
theorem forall₂_generateClasses {ctx : Context} {counter next : Nat} {cs : List ClassRecord}
    {outputs : List ClassOutput} (h : ctx.generateClasses counter cs = .ok (outputs, next)) :
    List.Forall₂ ctx.Generates cs outputs := by
  induction cs generalizing counter outputs with
  | nil =>
      cases h
      exact .nil
  | cons c rest ih =>
      obtain ⟨output, others, hc, hrest, rfl⟩ := generateClasses_cons_eq_ok_iff.1 h
      obtain ⟨plan, hplan, hout⟩ := generateClass_eq_ok_iff.1 hc
      exact .cons ⟨counter, plan, hplan, hout⟩ (ih hrest)

end Context

open Context

/-- **A run that succeeds**, taken apart. -/
theorem generate_eq_ok_iff {table : SymbolTable} {config : Config} {g : GenerationOutput} :
    generate table config = .ok g ↔ config.validate = .ok () ∧ ∃ classes counter wrapping,
      (ofRun table config).generateClasses 0 (runOrder table config) = .ok (classes, counter) ∧
      (ofRun table config).wrapFunctions counter = .ok wrapping ∧
      g = (ofRun table config).assemble (new table config).loadNotices classes wrapping := by
  rw [generate]
  refine ⟨?_, ?_⟩
  · intro h
    split at h
    · cases h
    · next hvalid =>
      obtain ⟨⟨classes, counter⟩, hclasses, hrest⟩ := bind_eq_ok.1 h
      obtain ⟨wrapping, hwrapping, hout⟩ := bind_eq_ok.1 hrest
      exact ⟨hvalid, classes, counter, wrapping, hclasses, hwrapping, (Except.ok.inj hout).symm⟩
  · rintro ⟨hvalid, classes, counter, wrapping, hclasses, hwrapping, rfl⟩
    rw [hvalid]
    exact bind_eq_ok.2 ⟨(classes, counter), hclasses, bind_eq_ok.2 ⟨wrapping, hwrapping, rfl⟩⟩

/-- A run with one class, from its plan and its wrapped functions. -/
theorem exists_generate_of_runOrder_singleton {table : SymbolTable} {config : Config}
    {c : ClassRecord} {plan : ClassPlan} {w : Wrapping} (hvalid : config.validate = .ok ())
    (horder : runOrder table config = [c]) (hplan : (ofRun table config).planClass c = .ok plan)
    (hwrap : (ofRun table config).wrapFunctions
      ((ofRun table config).factoriesOf 0 plan).records.length = .ok w) :
    ∃ g, generate table config = .ok g ∧
      g.factories = ((ofRun table config).factoriesOf 0 plan).records ∧
      g.functions = w.wrappers := by
  have hclass : (ofRun table config).generateClass 0 c =
      .ok ((ofRun table config).outputOf 0 c plan) :=
    generateClass_eq_ok_iff.2 ⟨plan, hplan, rfl⟩
  have hclasses := generateClasses_cons_eq_ok_iff.2 ⟨_, [], hclass, generateClasses_nil, rfl⟩
  rw [Nat.zero_add] at hclasses
  have hrun := generate_eq_ok_iff.2 ⟨hvalid, _, _, w, horder ▸ hclasses, hwrap, rfl⟩
  exact ⟨_, hrun, List.append_nil _, rfl⟩

end LoadBridge
