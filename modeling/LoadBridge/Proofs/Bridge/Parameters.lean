import LoadBridge.Proofs.Bridge.Agreement
import LoadBridge.Proofs.Bridge.Declarations
import LoadBridge.Proofs.Bridge.Symbols
import LoadBridge.Proofs.Symbol.Codec

/-!
# Bridge — Parameters

A parameter is written as a type and a name (`parameterText`).

* Its name is the one that its argument is declared with, or one made of its position.  The names of
  a list tell its parameters apart where the declared ones do, unless an argument is declared with
  the empty name or with a positional one (`namesUsable_iff`, `parameters_usable`).
* Its type is spelled alike in the Interface, in the library and in the Delegate, if it is not
  loaded.  With the name it makes the declaration of the argument, unless that is an array
  (`Context.parameterText_eq_declare_iff`, `Context.parameters_declared`).
-/

namespace LoadBridge

/-! ### Names -/

/-- The name that an argument without one gets at `index`. -/
def positionalName (index : Nat) : String := "arg_" ++ (index + 1).repr

/-- The names that arguments are declared with. -/
def declaredNames (args : List Argument) : List String := args.filterMap Argument.name

/-- An argument as it is built from a type and a name: the empty name is none. -/
def Argument.built (type : TypeRef) (name : String) (hasDefault : Bool) : Argument where
  type
  name := if name.isEmpty then none else some name
  hasDefault

/-- The names of the parameters tell them apart, and each is there. -/
structure NamesUsable (args : List Argument) : Prop where
  nonempty : ∀ name ∈ argNames args, name ≠ ""
  distinct : (argNames args).Nodup

/-- No argument is declared with the name that one without a name gets. -/
def FreeOfPositional (args : List Argument) : Prop :=
  ∀ i a, args[i]? = some a → a.name = none → positionalName i ∉ declaredNames args

section

variable {args : List Argument} {a b : Argument} {i j : Nat} {name : String}

theorem positionalName_injective : Function.Injective positionalName := by
  intro i j h
  have hnumber : ∀ n, symbolNumber (positionalName n) = n + 1 := fun n =>
    symbolNumber_numbered "arg" (n + 1)
  have hsame := congrArg symbolNumber h
  rw [hnumber, hnumber] at hsame
  exact Nat.succ.inj hsame

theorem positionalName_ne_empty (i : Nat) : positionalName i ≠ "" := by
  intro h
  have hlength := congrArg String.length h
  rw [positionalName, String.length_append] at hlength
  simp at hlength

theorem length_argNames (args : List Argument) : (argNames args).length = args.length := by
  simp [argNames]

theorem getElem?_argNames (args : List Argument) (i : Nat) :
    (argNames args)[i]? = args[i]?.map (argName i) := by
  simp [argNames, Function.comp_def]

theorem argName_of_none (h : a.name = none) : argName i a = positionalName i := by
  rw [argName, h]
  rfl

theorem argName_of_some (h : a.name = some name) : argName i a = name := by
  rw [argName, h]
  rfl

theorem mem_declaredNames_iff : name ∈ declaredNames args ↔
    ∃ (i : Nat) (a : Argument), args[i]? = some a ∧ a.name = some name := by
  rw [declaredNames, List.mem_filterMap]
  constructor
  · rintro ⟨a, ha, hname⟩
    obtain ⟨i, hi⟩ := List.mem_iff_getElem?.1 ha
    exact ⟨i, a, hi, hname⟩
  · rintro ⟨i, a, hi, hname⟩
    exact ⟨a, List.mem_of_getElem? hi, hname⟩

/-- Names that are declared are there, unless one is empty. -/
theorem ne_empty_of_mem_argNames (hempty : "" ∉ declaredNames args) (h : name ∈ argNames args) :
    name ≠ "" := by
  obtain ⟨i, hi⟩ := List.mem_iff_getElem?.1 h
  rw [getElem?_argNames, Option.map_eq_some_iff] at hi
  obtain ⟨a, ha, rfl⟩ := hi
  cases hname : a.name with
  | none => exact argName_of_none hname ▸ positionalName_ne_empty i
  | some declared =>
      rw [argName_of_some hname]
      rintro rfl
      exact hempty (mem_declaredNames_iff.2 ⟨i, a, ha, hname⟩)

/-- Declared names that are distinct tell positions apart. -/
theorem index_eq_of_name_eq (hdistinct : (declaredNames args).Nodup) (ha : args[i]? = some a)
    (hb : args[j]? = some b) (haname : a.name = some name) (hbname : b.name = some name) :
    i = j := by
  have hapart := List.pairwise_iff_getElem.1 (List.pairwise_filterMap.1 hdistinct)
  obtain ⟨hi, rfl⟩ := List.getElem?_eq_some_iff.1 ha
  obtain ⟨hj, rfl⟩ := List.getElem?_eq_some_iff.1 hb
  rcases Nat.lt_trichotomy i j with hlt | heq | hgt
  · exact absurd rfl (hapart i j hi hj hlt name haname name hbname)
  · exact heq
  · exact absurd rfl (hapart j i hj hi hgt name hbname name haname)

/-- Names tell positions apart where those that are declared do and no positional one is among
them. -/
theorem index_eq_of_argName_eq (hdistinct : (declaredNames args).Nodup)
    (hfree : FreeOfPositional args) (ha : args[i]? = some a) (hb : args[j]? = some b)
    (hsame : argName i a = argName j b) : i = j := by
  cases haname : a.name with
  | none =>
      rw [argName_of_none haname] at hsame
      cases hbname : b.name with
      | none => exact positionalName_injective (hsame.trans (argName_of_none hbname))
      | some name =>
          rw [argName_of_some hbname] at hsame
          exact absurd (mem_declaredNames_iff.2 ⟨j, b, hb, hsame ▸ hbname⟩) (hfree i a ha haname)
  | some name =>
      rw [argName_of_some haname] at hsame
      cases hbname : b.name with
      | none =>
          rw [argName_of_none hbname] at hsame
          exact absurd (mem_declaredNames_iff.2 ⟨i, a, ha, hsame ▸ haname⟩) (hfree j b hb hbname)
      | some other =>
          rw [argName_of_some hbname] at hsame
          exact index_eq_of_name_eq hdistinct ha hb haname (hsame ▸ hbname)

/-- **When the names of parameters are usable.**  No argument is declared with the empty name, and
none with the name that one without a name gets. -/
theorem namesUsable_iff (hdistinct : ((declaredNames args).filter (· ≠ "")).Nodup) :
    NamesUsable args ↔ "" ∉ declaredNames args ∧ FreeOfPositional args := by
  constructor
  · rintro ⟨hnonempty, hnodup⟩
    have hmem : ∀ i a, args[i]? = some a → (argNames args)[i]? = some (argName i a) :=
      fun i a ha => by rw [getElem?_argNames, ha, Option.map_some]
    constructor
    · intro hempty
      obtain ⟨i, a, ha, hname⟩ := mem_declaredNames_iff.1 hempty
      exact hnonempty _ (List.mem_of_getElem? (hmem i a ha)) (argName_of_some hname)
    · intro i a ha hname hclash
      obtain ⟨j, b, hb, hdeclared⟩ := mem_declaredNames_iff.1 hclash
      have hi := hmem i a ha
      have hj := hmem j b hb
      rw [argName_of_none hname] at hi
      rw [argName_of_some hdeclared] at hj
      obtain ⟨hlt, -⟩ := List.getElem?_eq_some_iff.1 hi
      obtain rfl : i = j := (List.getElem?_inj hlt hnodup).1 (hi.trans hj.symm)
      obtain rfl := Option.some.inj (ha.symm.trans hb)
      cases hname.symm.trans hdeclared
  · rintro ⟨hempty, hfree⟩
    have hall : (declaredNames args).filter (· ≠ "") = declaredNames args := by
      refine List.filter_eq_self.2 fun name hname => decide_eq_true ?_
      rintro rfl
      exact hempty hname
    rw [hall] at hdistinct
    refine ⟨fun name hname => ne_empty_of_mem_argNames hempty hname, ?_⟩
    refine List.nodup_iff_getElem?_ne_getElem?.2 fun i j hij hj hsame => ?_
    rw [length_argNames] at hj
    rw [getElem?_argNames, getElem?_argNames, List.getElem?_eq_getElem hj,
      List.getElem?_eq_getElem (hij.trans hj)] at hsame
    exact hij.ne (index_eq_of_argName_eq hdistinct hfree (List.getElem?_eq_getElem _)
      (List.getElem?_eq_getElem hj) (Option.some.inj hsame))

theorem ne_empty_of_built {type : TypeRef} {hasDefault : Bool}
    (h : a = .built type name hasDefault) : a.name ≠ some "" := by
  subst h
  rw [Argument.built]
  dsimp only
  split
  · exact nofun
  · next hname =>
    rintro hsome
    obtain rfl := Option.some.inj hsome
    exact hname rfl

theorem callArguments_eq (args : List Argument) (convert : TypeRef → String → String) :
    callArguments args convert =
      ", ".intercalate (List.zipWith convert (args.map Argument.type) (argNames args)) := by
  rw [callArguments, argNames]
  congr 1
  exact List.ext_getElem (by simp) fun i hi hi' => by simp

/-- **The names of parameters.**  Where the names that arguments are declared with tell them apart,
the empty one not counted, the names of the parameters are there and tell them apart if no argument
is declared with the empty name or with the name that one without a name gets, and only then.
Arguments that are built from a type and a name are never declared with the empty one.  There is one
name for each argument; a list of parameters declares them in order, and a call passes them in the
same order. -/
theorem parameters_usable (args : List Argument)
    (hdistinct : ((declaredNames args).filter (· ≠ "")).Nodup) :
    (NamesUsable args ↔ "" ∉ declaredNames args ∧ FreeOfPositional args) ∧
    ((∀ a ∈ args, ∃ type name hasDefault, a = .built type name hasDefault) →
      (NamesUsable args ↔ FreeOfPositional args)) ∧
    (argNames args).length = args.length ∧
    (∀ spell, parameterList args spell = ", ".intercalate
      (List.zipWith parameterText (args.map fun a => spell a.type) (argNames args))) ∧
    ∀ convert, callArguments args convert = ", ".intercalate
      (List.zipWith convert (args.map Argument.type) (argNames args)) := by
  have husable := namesUsable_iff hdistinct
  refine ⟨husable, fun hbuilt => ?_, length_argNames args, Context.parameterList_eq args,
    callArguments_eq args⟩
  have hempty : "" ∉ declaredNames args := by
    intro hempty
    obtain ⟨i, a, ha, hname⟩ := mem_declaredNames_iff.1 hempty
    obtain ⟨type, name, hasDefault, hmade⟩ := hbuilt a (List.mem_of_getElem? ha)
    exact ne_empty_of_built hmade hname
  rw [husable, and_iff_right hempty]

end

/-- Two arguments without a name around one that has one. -/
def sailArgs : List Argument :=
  [.built (.named "int") "" false, .built (.named "double") "area" false,
    .built (.named "int") "" true]

theorem parameters_usable_sail :
    ((declaredNames sailArgs).filter (· ≠ "")).Nodup ∧ NamesUsable sailArgs ∧
    parameterList sailArgs TypeRef.display = "int arg_1, double area, int arg_3" ∧
    callArguments sailArgs (fun _ name => name) = "arg_1, area, arg_3" := by
  have hdistinct : ((declaredNames sailArgs).filter (· ≠ "")).Nodup := by decide
  obtain ⟨-, hbuilt, -, hparams, hcall⟩ := parameters_usable sailArgs hdistinct
  have hnames : argNames sailArgs = ["arg_1", "area", "arg_3"] := by cbv
  refine ⟨hdistinct, (hbuilt ?_).2 ?_, ?_, ?_⟩
  · simp only [sailArgs, List.forall_mem_cons, List.not_mem_nil, false_imp_iff, implies_true]
    exact ⟨⟨_, _, _, rfl⟩, ⟨_, _, _, rfl⟩, ⟨_, _, _, rfl⟩, trivial⟩
  · intro i a ha hname
    have hpositional : ∀ i < 3, positionalName i ∉ declaredNames sailArgs := by decide +kernel
    exact hpositional i (List.getElem?_eq_some_iff.1 ha).1
  · rw [hparams, hnames]
    decide +kernel
  · rw [hcall, hnames]
    decide +kernel

/-- An argument that is declared with the empty name. -/
def namelessArgs : List Argument := [{ type := .named "int", name := some "" }]

/-- An argument without a name before one that has the name it gets. -/
def clashingArgs : List Argument :=
  [{ type := .named "int" }, { type := .named "int", name := some "arg_1" }]

/-- **Names that are not usable.**  An argument that is read with the empty name keeps it, where one
that is built with it has none; and two parameters get one name. -/
theorem parameters_not_usable :
    (∀ a ∈ namelessArgs ++ clashingArgs, Argument.decode a.encode = some a) ∧
    ((declaredNames namelessArgs).filter (· ≠ "")).Nodup ∧ argNames namelessArgs = [""] ∧
    ¬ NamesUsable namelessArgs ∧
    ((declaredNames clashingArgs).filter (· ≠ "")).Nodup ∧
    argNames clashingArgs = ["arg_1", "arg_1"] ∧ ¬ NamesUsable clashingArgs := by
  have hnameless : argNames namelessArgs = [""] := by cbv
  have hclashing : argNames clashingArgs = ["arg_1", "arg_1"] := by cbv
  refine ⟨fun a _ => Argument.reads a, by decide, hnameless, ?_, by decide, hclashing, ?_⟩
  · intro h
    exact h.nonempty "" (hnameless ▸ List.mem_cons_self) rfl
  · intro h
    have hnodup := h.distinct
    rw [hclashing] at hnodup
    exact absurd hnodup (by decide)

/-! ### Types -/

/-- The parameters of a list, as they are written. -/
def parameterTexts (args : List Argument) (spell : TypeRef → String) : List String :=
  args.zipIdx.map fun (a, i) => parameterText (spell a.type) (argName i a)

theorem getElem?_parameterTexts (args : List Argument) (spell : TypeRef → String) (i : Nat) :
    (parameterTexts args spell)[i]? =
      args[i]?.map fun a => parameterText (spell a.type) (argName i a) := by
  simp [parameterTexts, Function.comp_def]

namespace Context

variable {ctx : Context} {args : List Argument} {type : TypeRef} {spell : TypeRef → String}

/-- How the types of parameters are spelled: in the Interface, for the host and for the library, and
in the Delegate. -/
def spellings (ctx : Context) : List (TypeRef → String) :=
  [ctx.interfaceArgType .generated, ctx.interfaceArgType .library, ctx.delegateType]

theorem getElem?_declaredTexts (ctx : Context) (args : List Argument) (i : Nat) :
    (ctx.declaredTexts args)[i]? =
      args[i]?.map fun a => a.type.declare (ctx.libraryBase a.type) (argName i a) := by
  simp [declaredTexts, Function.comp_def]

/-- A type that is not loaded is spelled in one way. -/
theorem spell_of_not_loaded (h : ctx.loaded? type = none) (hspell : spell ∈ ctx.spellings) :
    spell type = ctx.libraryType type := by
  simp only [spellings, List.mem_cons, List.not_mem_nil, or_false] at hspell
  obtain rfl | rfl | rfl := hspell
  · exact interfaceArgType_of_not_loaded h .generated
  · exact interfaceArgType_of_not_loaded h .library
  · rw [delegateType, h]

/-- **One parameter is written as it is declared**, if it is not loaded and no array. -/
theorem parameterText_eq_declare_iff (h : ctx.loaded? type = none) (hspell : spell ∈ ctx.spellings)
    (name : String) : parameterText (spell type) name = type.declare (ctx.libraryBase type) name ↔
      type.isArray = false := by
  rw [spell_of_not_loaded h hspell, eq_comm]
  exact type.declare_eq_iff _ _

/-- **All parameters are written as they are declared**, if none is an array. -/
theorem parameterTexts_eq_declaredTexts_iff (hnone : ∀ a ∈ args, ctx.loaded? a.type = none)
    (hspell : spell ∈ ctx.spellings) :
    parameterTexts args spell = ctx.declaredTexts args ↔ ∀ a ∈ args, a.type.isArray = false := by
  rw [parameterTexts, declaredTexts, List.map_inj_left]
  constructor
  · intro hsame a ha
    obtain ⟨i, hi⟩ := List.mem_iff_getElem?.1 ha
    have hmem : (a, i) ∈ args.zipIdx := List.mem_zipIdx_iff_getElem?.2 hi
    exact (parameterText_eq_declare_iff (hnone a ha) hspell _).1 (hsame _ hmem)
  · rintro hplain ⟨a, i⟩ hmem
    have ha := List.fst_mem_of_mem_zipIdx hmem
    exact (parameterText_eq_declare_iff (hnone a ha) hspell _).2 (hplain a ha)

/-- **The types of parameters.**  A parameter list is made of one text for each argument.  Where the
type of the argument is not loaded, the text is the same in the Interface, in the library and in the
Delegate, and it is the declaration of the argument unless that is an array.  So a method that
implements its pure virtual function by itself has the parameters of that function exactly if it
takes no array. -/
theorem parameters_declared (ctx : Context) :
    (∀ args spell, parameterList args spell = ", ".intercalate (parameterTexts args spell)) ∧
    (∀ (args : List Argument) (i : Nat) (a : Argument), args[i]? = some a →
      ctx.loaded? a.type = none → ∀ spell ∈ ctx.spellings,
        (parameterTexts args spell)[i]? =
          some (parameterText (ctx.libraryType a.type) (argName i a)) ∧
        ((parameterTexts args spell)[i]? = (ctx.declaredTexts args)[i]? ↔
          a.type.isArray = false)) ∧
    ∀ c plan, ctx.planClass c = .ok plan → ∀ m ∈ plan.methods, m.needsForwarder = false →
      ∀ spell ∈ ctx.spellings,
        (parameterTexts m.args spell = ctx.declaredTexts m.member.args ↔
          ∀ a ∈ m.member.args, a.type.isArray = false) := by
  refine ⟨fun _ _ => rfl, fun args i a ha hnone spell hspell => ?_, ?_⟩
  · rw [getElem?_parameterTexts, getElem?_declaredTexts, ha, Option.map_some, Option.map_some,
      Option.some_inj, Option.some_inj, parameterText_eq_declare_iff hnone hspell]
    exact ⟨congrArg (parameterText · _) (spell_of_not_loaded hnone hspell), Iff.rfl⟩
  · intro c plan hplan m hm hforwarder spell hspell
    have hkept := (of_mem_methods hplan hm).isKept hforwarder
    rw [hkept.args]
    refine parameterTexts_eq_declaredTexts_iff (fun a ha => ?_) hspell
    exact hkept.notLoaded _ (List.mem_append_right _ (List.mem_map_of_mem ha))

/-! ### A class with a plain method, a forwarded one, and one that takes an array -/

/-- Takes nothing that is loaded. -/
def meshScale : MemberRecord where
  id := ⟨"_2"⟩
  name := "scale"
  kind := .method
  context := ⟨"_1"⟩
  type := some (.named "void")
  args :=
    let weights := { TypeRef.named "int" with pointerDepth := 1, cv := ⟨true, false⟩ }
    [{ type := .named "double", name := some "factor" }, { type := weights }]

/-- Takes another object of the class before a number. -/
def meshJoin : MemberRecord where
  id := ⟨"_3"⟩
  name := "join"
  kind := .method
  context := ⟨"_1"⟩
  type := some (.named "void")
  args :=
    let mesh := TypeRef.of ⟨"_1"⟩ [] "Mesh"
    [{ type := mesh.reference, name := some "other" }, { type := .named "int", name := some "n" }]

/-- Takes arrays, by address and by reference. -/
def meshFill : MemberRecord where
  id := ⟨"_4"⟩
  name := "fill"
  kind := .method
  context := ⟨"_1"⟩
  type := some (.named "void")
  args :=
    let cells := (TypeRef.named "int").array 3
    [{ type := cells, name := some "v" }, { type := cells.reference, name := some "w" }]

def meshRecord : ClassRecord where
  id := ⟨"_1"⟩
  name := "Mesh"
  members := [⟨"_2"⟩, ⟨"_3"⟩, ⟨"_4"⟩]

def meshTable : SymbolTable where
  records := [.ofClass meshRecord, .ofMember meshScale, .ofMember meshJoin, .ofMember meshFill]
  distinct := by decide

def meshContext : Context := (new meshTable {}).register [⟨[], "Mesh"⟩]

/-- What is planned of the mesh. -/
theorem methods_mesh : ∃ plan, meshContext.planClass meshRecord = .ok plan ∧
    plan.methods.map (fun m => (m.member, m.args, m.needsForwarder)) =
      [(meshScale, meshScale.args, false), (meshJoin, meshJoin.args, true),
        (meshFill, meshFill.args, false)] :=
  map_eq_ok.1 (toOption_eq_some.1 (by decide +kernel))

theorem parameters_declared_mesh : ∃ plan, meshContext.planClass meshRecord = .ok plan ∧
    (∃ m ∈ plan.methods, m.needsForwarder = false ∧ m.member = meshScale ∧
      ∀ spell ∈ meshContext.spellings,
        parameterTexts m.args spell = ["double factor", "const int* arg_2"]) ∧
    (∃ m ∈ plan.methods, m.needsForwarder = true ∧ m.member = meshJoin ∧
      ∀ spell ∈ meshContext.spellings, (parameterTexts m.args spell)[1]? = some "int n") := by
  obtain ⟨plan, hplan, hmethods⟩ := methods_mesh
  obtain ⟨-, hone, hkept⟩ := parameters_declared meshContext
  have hmem : ∀ x ∈ [(meshScale, meshScale.args, false), (meshJoin, meshJoin.args, true)],
      ∃ m ∈ plan.methods, (m.member, m.args, m.needsForwarder) = x := by
    intro x hx
    refine List.mem_map.1 (hmethods ▸ ?_)
    simp only [List.mem_cons, List.not_mem_nil, or_false] at hx ⊢
    exact hx.imp_right .inl
  obtain ⟨scale, hscale, hscaled⟩ := hmem (meshScale, _) List.mem_cons_self
  obtain ⟨join, hjoin, hjoined⟩ := hmem (meshJoin, _) (List.mem_cons_of_mem _ List.mem_cons_self)
  simp only [Prod.mk.injEq] at hscaled hjoined
  obtain ⟨hscaleMember, -, hplain⟩ := hscaled
  obtain ⟨hjoinMember, hjoinArgs, hforwarded⟩ := hjoined
  refine ⟨plan, hplan, ⟨scale, hscale, hplain, hscaleMember, fun spell hspell => ?_⟩,
    ⟨join, hjoin, hforwarded, hjoinMember, fun spell hspell => ?_⟩⟩
  · have hdeclared := (hkept meshRecord plan hplan scale hscale hplain spell hspell).2
      (by rw [hscaleMember]; decide)
    rw [hdeclared, hscaleMember]
    cbv
  · have hnumber : join.args[1]? = some { type := .named "int", name := some "n" } := by
      rw [hjoinArgs]
      rfl
    have hnone : meshContext.loaded? (.named "int") = none := by cbv
    have hdeclared := (hone _ 1 _ hnumber hnone spell hspell).2.2 (by decide)
    rw [hdeclared, hjoinArgs]
    cbv

/-- **Arrays are not declared as such.**  The pure virtual functions are written without the extents
that the library declares, so that a method left to implement one does not have its parameters. -/
theorem parameters_not_declared : ∃ plan, meshContext.planClass meshRecord = .ok plan ∧
    ∃ m ∈ plan.methods, m.needsForwarder = false ∧ m.member = meshFill ∧
      (∀ a ∈ m.args, meshContext.loaded? a.type = none) ∧
      meshContext.declaredTexts m.args = ["int v[3]", "int (&w)[3]"] ∧
      ∀ spell ∈ meshContext.spellings, parameterTexts m.args spell = ["int v", "int& w"] ∧
        parameterTexts m.args spell ≠ meshContext.declaredTexts m.args := by
  obtain ⟨plan, hplan, hmethods⟩ := methods_mesh
  have hmem : (meshFill, meshFill.args, false) ∈
      plan.methods.map fun m => (m.member, m.args, m.needsForwarder) := by
    rw [hmethods]
    exact List.mem_cons_of_mem _ (List.mem_cons_of_mem _ List.mem_cons_self)
  obtain ⟨m, hm, hfill⟩ := List.mem_map.1 hmem
  simp only [Prod.mk.injEq] at hfill
  obtain ⟨hmember, hargs, hkept⟩ := hfill
  have hnone : ∀ a ∈ meshFill.args, meshContext.loaded? a.type = none := by
    simp only [meshFill, List.forall_mem_cons, List.not_mem_nil, false_imp_iff, implies_true,
      and_true]
    exact ⟨by cbv, by cbv⟩
  have hdeclared : meshContext.declaredTexts meshFill.args = ["int v[3]", "int (&w)[3]"] := by cbv
  refine ⟨plan, hplan, m, hm, hkept, hmember, hargs ▸ hnone, hargs ▸ hdeclared,
    fun spell hspell => ?_⟩
  have hwritten : parameterTexts meshFill.args spell = ["int v", "int& w"] := by
    rw [parameterTexts, List.map_congr_left (g := fun x =>
      parameterText (meshContext.libraryType x.1.type) (argName x.2 x.1))]
    · cbv
    · rintro ⟨a, i⟩ hmem
      exact congrArg (parameterText · _)
        (spell_of_not_loaded (hnone a (List.fst_mem_of_mem_zipIdx hmem)) hspell)
  rw [hargs, hwritten, hdeclared]
  exact ⟨rfl, by decide⟩

end Context

end LoadBridge
