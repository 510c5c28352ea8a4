import LoadBridge.Proofs.Bridge.Accounting
import LoadBridge.Proofs.Bridge.Copying
import LoadBridge.Proofs.Bridge.Exposure

/-!
# Bridge — What is on the ditch list is left out

A name is on the ditch list in any spelling (`Config.Ditches`).  Every verdict consults the list, so
of what is on it a run generates no class, plans no member and wraps no function
(`GenerationOutput.ditched_left_out`).  The hooks that copy and assign rest on no verdict: they
follow from the members that a class declares, so they are there though every copy constructor and
every assignment operator is on the list (`GenerationOutput.ditched_copied`).
-/

namespace LoadBridge

/-- The ditch list has this name, in some spelling. -/
def Config.Ditches (config : Config) (name : String) : Prop :=
  ∃ entry ∈ config.load.ditch, Name.key entry = Name.key name

theorem Config.isDitched_iff {config : Config} {name : String} :
    config.isDitched name = true ↔ config.Ditches name := by
  rw [isDitched, List.any_eq_true]
  refine exists_congr fun entry => and_congr_right fun _ => ?_
  rw [Name.same_iff, eq_comm]

theorem Config.isDitched_eq_false_iff {config : Config} {name : String} :
    config.isDitched name = false ↔ ¬ config.Ditches name := by
  rw [← isDitched_iff, Bool.not_eq_true]

namespace Context

variable {ctx : Context} {f : FunctionRecord}

/-- A function on the ditch list gets no wrapper. -/
theorem not_ditches_of_mem_acceptedCalls {call : String × Nat} (h : call ∈ ctx.acceptedCalls f) :
    ¬ ctx.config.Ditches call.1 := by
  obtain ⟨arity, -, rfl⟩ := List.mem_map.1 h
  rw [← Config.isDitched_eq_false_iff]
  by_contra hditched
  rw [Bool.not_eq_false] at hditched
  have hnone := (refusals_of_isDitched (show ctx.isDitched f.qualifiedName = true from hditched)).1
  rw [hnone] at h
  cases h

end Context

namespace GenerationOutput

open Context

variable {table : SymbolTable} {config : Config} {g : GenerationOutput}

/-- Every wrapper of a run is for a function that is not on the ditch list. -/
theorem not_ditches_of_mem_functions (h : generate table config = .ok g) {w : FunctionWrapper}
    (hw : w ∈ g.functions) : ¬ config.Ditches w.target := by
  obtain ⟨selectors, -, haccounts⟩ := exists_accountsFunctions h
  have hcall : w.call ∈ g.functions.map FunctionWrapper.call := List.mem_map_of_mem hw
  rw [haccounts.wrappers] at hcall
  obtain ⟨f, -, haccepted⟩ := List.mem_flatMap.1 hcall
  exact not_ditches_of_mem_acceptedCalls haccepted

/-- A class that a run generates is not on the ditch list. -/
theorem not_ditches_of_mem_runOrder {c : ClassRecord} (hc : c ∈ runOrder table config) :
    ¬ config.Ditches c.qualifiedName := by
  have haccepted := accepted_of_mem_loadSet (mem_loadSet_of_mem_runOrder hc)
  exact Config.isDitched_eq_false_iff.1 (checkClass_eq_accepted_iff.1 haccepted).1

/-- What a plan of a run exposes is not on the ditch list. -/
theorem not_ditches_of_mem_exposed {c : ClassRecord} {plan : ClassPlan} {item : OwnedMember}
    (h : (ofRun table config).planClass c = .ok plan) (hitem : item ∈ plan.exposed) :
    ¬ config.Ditches (memberPath item.1 item.2) := by
  obtain ⟨_, _, members, _, -, -, hmembers, -, -⟩ := planClass_eq_ok_iff.1 h
  exact Config.isDitched_eq_false_iff.1 (of_mem_exposed h hmembers hitem).2.2

/-- **What is on the ditch list is left out**, but for copies.  Of a run that succeeds: no class of
it is on the list; every class is made from a plan, and no constructor, method, operator or field of
the plan is on the list; and no function that is wrapped is on the list.  The hooks follow from what
the class declares itself, and from nothing else: the Interface copies where there is a public copy
constructor and assigns where there is a public assignment operator, unless a member is pure
virtual, and the Delegate has an assignment where the Interface assigns. -/
theorem ditched_left_out (h : generate table config = .ok g) :
    (∀ output ∈ g.classes, ¬ config.Ditches output.target ∧
      ∃ c ∈ table.classes, ∃ plan counter, (ofRun table config).planClass c = .ok plan ∧
        output = (ofRun table config).outputOf counter c plan ∧
        (∀ item ∈ plan.exposed, ¬ config.Ditches (memberPath item.1 item.2)) ∧
        (output.interface.pointerCopy = true ↔ table.DeclaresCopy c ∧ ¬ table.DeclaresPure c) ∧
        (output.interface.pointerAssign = true ↔
          table.DeclaresAssignment c ∧ ¬ table.DeclaresPure c) ∧
        ((ofRun table config).assignItem plan ∈ output.delegate.definitions.items ↔
          output.interface.pointerAssign = true)) ∧
    ∀ w ∈ g.functions, ¬ config.Ditches w.target := by
  refine ⟨fun output houtput => ?_, fun w hw => not_ditches_of_mem_functions h hw⟩
  obtain ⟨c, hc, counter, plan, hplan, rfl⟩ := exists_plan_of_mem_classes h houtput
  refine ⟨not_ditches_of_mem_runOrder hc, c, mem_classes_of_mem_runOrder hc, plan, counter, hplan,
    rfl, fun item hitem => not_ditches_of_mem_exposed hplan hitem, ?_, ?_, ?_⟩
  · exact pointerCopy_iff hplan
  · exact pointerAssign_iff hplan
  · exact assignItem_mem_definitions_iff _ plan _ _

/-! ### A class that is not to be copied -/

/-- A class with a constructor, a copy constructor, an assignment operator and two methods. -/
def tokenRecord : ClassRecord where
  id := ⟨"_1"⟩
  name := "Token"
  members := [⟨"_2"⟩, ⟨"_3"⟩, ⟨"_4"⟩, ⟨"_5"⟩, ⟨"_6"⟩]

def tokenMembers : List MemberRecord :=
  let int := TypeRef.named "int"
  let token := (TypeRef.of ⟨"_1"⟩ [] "Token").reference
  [{ id := ⟨"_2"⟩, name := "Token", kind := .constructor, context := ⟨"_1"⟩ },
    { id := ⟨"_3"⟩, name := "Token", kind := .constructor, context := ⟨"_1"⟩
      args := [{ type := token.constant }] },
    { id := ⟨"_4"⟩, name := "=", kind := .operator, context := ⟨"_1"⟩, type := some token
      args := [{ type := token.constant }] },
    { id := ⟨"_5"⟩, name := "id", kind := .method, context := ⟨"_1"⟩, type := some int },
    { id := ⟨"_6"⟩, name := "key", kind := .method, context := ⟨"_1"⟩, type := some int }]

/-- The function beside the class. -/
def leakFunction : FunctionRecord where
  id := ⟨"_8"⟩
  name := "leak"
  returns := some (.named "int")

/-- The class, another one and a function. -/
def tokenTable : SymbolTable where
  records := .ofClass tokenRecord :: tokenMembers.map .ofMember ++
    [.ofClass { id := ⟨"_7"⟩, name := "Vault" }, .ofFunction leakFunction]
  distinct := by decide

/-- Asks for everything, and skips all but one method of the first class. -/
def tokenConfig : Config where
  load :=
    { classes := ["Token", "Vault"], functions := ["leak"]
      ditch := ["Token::Token", ":: Token::operator =", "Token::key", "Vault", "::leak"] }

theorem tokenTable_wellFormed : tokenTable.WellFormed where
  members := by simp [tokenTable, tokenRecord, tokenMembers, leakFunction, SymbolTable.classes,
    SymbolTable.lookup, Record.asClass?, Record.id]
  typed := by decide
  bases := by simp [tokenTable, tokenRecord, tokenMembers, leakFunction, Record.types,
    SymbolTable.HasBase, SymbolTable.lookup, Record.id, TypeRef.of, TypeRef.named,
    TypeRef.constant, TypeRef.reference, Record.isType]

theorem tokenTable_membersOf : tokenTable.membersOf tokenRecord = .ok tokenMembers :=
  toOption_eq_some.1 (by decide)

/-- The first class is loaded, the second is on the ditch list. -/
theorem loadSet_token : (new tokenTable tokenConfig).loadSet = [tokenRecord] := by
  have hrequested : (new tokenTable tokenConfig).requestedIds = [⟨"_1"⟩] := by decide
  rw [loadSet, loadSetIds_eq_requestedIds rfl (hrequested ▸ by decide), hrequested]
  rfl

theorem exists_token {g : GenerationOutput} (h : generate tokenTable tokenConfig = .ok g) :
    ∃ output ∈ g.classes, (ofRun tokenTable tokenConfig).Generates tokenRecord output := by
  have hkeys : tokenTable.KeysDistinct := by
    rw [SymbolTable.KeysDistinct]
    decide
  exact exists_output_of_mem_loadSet hkeys h (by simp [loadSet_token])

theorem ditched_left_out_token : ∃ g, generate tokenTable tokenConfig = .ok g ∧
    (∃ output ∈ g.classes, output.target = "Token" ∧ ∃ plan counter,
      (ofRun tokenTable tokenConfig).planClass tokenRecord = .ok plan ∧
      output = (ofRun tokenTable tokenConfig).outputOf counter tokenRecord plan ∧
      plan.exposed.map (fun item => item.2.name) = ["id"]) ∧
    (∀ output ∈ g.classes, output.target ≠ "Vault") ∧ ∀ w ∈ g.functions, w.target ≠ "leak" := by
  obtain ⟨g, hg⟩ := succeeds_generate tokenTable_wellFormed
    (show tokenConfig.validate = .ok () by cbv)
  have hcontext : ofRun tokenTable tokenConfig =
      (new tokenTable tokenConfig).register [⟨[], "Token"⟩] := by
    rw [ofRun, loadSet_token]
    rfl
  have hexposed : ((ofRun tokenTable tokenConfig).planClass tokenRecord).map
      (fun plan => plan.exposed.map fun item => item.2.name) = .ok ["id"] := by
    rw [hcontext]
    exact toOption_eq_some.1 (by decide)
  obtain ⟨hclasses, hfunctions⟩ := ditched_left_out hg
  obtain ⟨output, houtput, counter, plan, hplan, rfl⟩ := exists_token hg
  rw [hplan] at hexposed
  refine ⟨g, hg, ⟨_, houtput, rfl, plan, counter, hplan, rfl, Except.ok.inj hexposed⟩, ?_, ?_⟩
  · intro other hother hvault
    exact (hclasses other hother).1 ⟨"Vault", by simp [tokenConfig], by rw [hvault]⟩
  · intro w hw hleak
    exact hfunctions w hw ⟨"::leak", by simp [tokenConfig], by rw [hleak]; cbv⟩

/-- **A class is copied and assigned though both are on the ditch list.** -/
theorem ditched_copied : ∃ g, generate tokenTable tokenConfig = .ok g ∧
    (∀ m, tokenTable.Declares tokenRecord m → isCopyConstructor tokenRecord m = true →
      tokenConfig.Ditches (memberPath tokenRecord m)) ∧
    (∀ m, tokenTable.Declares tokenRecord m → isAssignmentOperator tokenRecord m = true →
      tokenConfig.Ditches (memberPath tokenRecord m)) ∧
    ∃ output ∈ g.classes, output.target = "Token" ∧ output.interface.pointerCopy = true ∧
      output.interface.pointerAssign = true ∧
      ∃ plan, (ofRun tokenTable tokenConfig).planClass tokenRecord = .ok plan ∧
        (ofRun tokenTable tokenConfig).assignItem plan ∈ output.delegate.definitions.items := by
  obtain ⟨g, hg⟩ := succeeds_generate tokenTable_wellFormed
    (show tokenConfig.validate = .ok () by cbv)
  have hditched : ∀ m ∈ tokenMembers,
      (isCopyConstructor tokenRecord m || isAssignmentOperator tokenRecord m) = true →
      tokenConfig.isDitched (memberPath tokenRecord m) = true := by decide
  have hdeclared : ∀ {m}, tokenTable.Declares tokenRecord m ↔ m ∈ tokenMembers :=
    SymbolTable.declares_iff tokenTable_membersOf
  have himpure : ¬ tokenTable.DeclaresPure tokenRecord := by
    rintro ⟨m, hm, hpure⟩
    have hnone : ∀ m ∈ tokenMembers, m.isPureVirtual = false := by decide
    simp [hnone m (hdeclared.1 hm)] at hpure
  have hcopy : tokenTable.DeclaresCopy tokenRecord :=
    ⟨tokenMembers[1], hdeclared.2 (by simp), by decide, by decide⟩
  have hassign : tokenTable.DeclaresAssignment tokenRecord :=
    ⟨tokenMembers[2], hdeclared.2 (by simp), by decide, by decide⟩
  obtain ⟨output, houtput, counter, plan, hplan, rfl⟩ := exists_token hg
  have hassigns := (pointerAssign_iff hplan).2 ⟨hassign, himpure⟩
  refine ⟨g, hg, fun m hm hcopies => ?_, fun m hm hassigns => ?_, _, houtput, rfl,
    (pointerCopy_iff hplan).2 ⟨hcopy, himpure⟩, hassigns, plan, hplan,
    (assignItem_mem_definitions_iff _ plan _ _).2 hassigns⟩
  · exact Config.isDitched_iff.1 (hditched m (hdeclared.1 hm) (by simp [hcopies]))
  · exact Config.isDitched_iff.1 (hditched m (hdeclared.1 hm) (by simp [hassigns]))

end GenerationOutput

end LoadBridge
