import Mathlib.Data.List.Forall2
import LoadBridge.Proofs.Bridge.EntryPoint

/-!
# Bridge — The layout of an Interface

Library and host each compile a declaration of an Interface, and calls go through the table of its
virtual functions.  What the declaration declares, in order, is its layout (`Context.layout`), which
is read off the plan without regard to the build.  Both declarations have this layout
(`Context.declares_interfaceBody`).  Beside the hooks that are declared before the library's class
they differ only in how they write two virtual functions, the creation of the companion and the
destructor (`Context.same_layout`).
-/

namespace LoadBridge

open Code (Item)

/-- What a member of a class declares. -/
inductive ClassMember where
  /-- What comes next can be seen by these. -/
  | access (label : String)
  | data (declaration : String)
  /-- A function that calls do not look up. -/
  | function (signature : String)
  /-- A function that calls look up in the table of virtual functions. -/
  | dynamic (signature : String)

namespace ClassMember

def data? : ClassMember → Option String
  | .data declaration => some declaration
  | _ => none

def dynamic? : ClassMember → Option String
  | .dynamic signature => some signature
  | _ => none

end ClassMember

namespace Code.Item

/-- Whether a piece of code declares a member.  A function is declared with its body or without. -/
def Declares : Item → ClassMember → Prop
  | .line text, .access label => text = label
  | .line text, .data declaration => text = declaration ++ ";"
  | .line text, .function signature =>
    text = signature ++ ";" ∨ ∃ body, text = signature ++ " \x7b " ++ body ++ " \x7d"
  | .block header _ trailer, .function signature =>
    trailer = "" ∧
      (header = signature ∨ ∃ initializers, header = signature ++ " : " ++ initializers)
  | .line text, .dynamic signature =>
    text = "virtual " ++ signature ++ " =0;" ∨ text = "virtual " ++ signature ++ " \x7b\x7d"
  | .block header _ trailer, .dynamic signature => trailer = "" ∧ header = "virtual " ++ signature
  | .block _ _ _, .access _ | .block _ _ _, .data _ => False

end Code.Item

namespace Code.Item

theorem declares_inline {text signature : String} (body : String)
    (h : text = signature ++ " \x7b " ++ body ++ " \x7d") :
    (Item.line text).Declares (.function signature) :=
  .inr ⟨body, h⟩

theorem declares_data (declaration : String) :
    (Item.line (declaration ++ ";")).Declares (.data declaration) := rfl

theorem declares_function (signature : String) (body : List String) :
    (Item.function signature body).Declares (.function signature) :=
  ⟨rfl, .inl rfl⟩

/-- A pure virtual function declares what the same function with a body declares. -/
theorem declares_pure (signature : String) :
    (Item.line ("virtual " ++ signature ++ " =0;")).Declares (.dynamic signature) :=
  .inl rfl

/-- Members that are declared one by one. -/
theorem declares_map {α : Type} {item : α → Item} {member : α → ClassMember}
    (h : ∀ a, (item a).Declares (member a)) (as : List α) :
    List.Forall₂ Declares (as.map item) (as.map member) := by
  rw [List.forall₂_map_left_iff, List.forall₂_map_right_iff, List.forall₂_same]
  exact fun a _ => h a

end Code.Item

/-! ### The protocol -/

namespace InterfaceProtocol

/-- The companion and who owns it. -/
def companionLayout (p : InterfaceProtocol) : List ClassMember :=
  [.access "private:", .data (p.delegate ++ "* wptr"), .data "bool delete_wrapper",
    .access "public:", .function (p.delegate ++ "* get_wptr()"),
    .function ("void set_wptr(" ++ p.delegate ++ "* wptr_in)"),
    .function "bool get_delete_wrapper()", .function "void set_delete_wrapper(bool del_wrp_in)"]

/-- Construction and assignment. -/
def constructorLayout (p : InterfaceProtocol) : List ClassMember :=
  [.function (p.constructorName ++ "()"),
    .function (p.constructorName ++ "(const " ++ p.interface ++ "& in)"),
    .function (p.interface ++ "& operator=(const " ++ p.interface ++ "&)")]

def creationSignature : String := "void init_wrapper()"

/-- The companion, made on first use. -/
def materializerLayout (p : InterfaceProtocol) : List ClassMember :=
  [.function (p.delegate ++ "* get_init_wptr()"), .function (p.delegate ++ "& get_init_wref()")]

def destructorSignature (p : InterfaceProtocol) : String := "~" ++ p.constructorName ++ "()"

/-- What the protocol declares in an Interface. -/
def layout (p : InterfaceProtocol) : List ClassMember :=
  p.companionLayout ++ [.access "public:"] ++ p.constructorLayout ++ [.dynamic creationSignature] ++
    p.materializerLayout ++ [.dynamic p.destructorSignature]

variable (p : InterfaceProtocol) (flavor : Flavor)

/-- The companion and who owns it, read one by one. -/
theorem items_companionMembers : p.companionMembers.items =
    [.line "private:", .line (p.delegate ++ "* wptr;"), .line "bool delete_wrapper;",
      .line "public:", .line (p.delegate ++ "* get_wptr() \x7b return wptr; \x7d"),
      .line ("void set_wptr(" ++ p.delegate ++ "* wptr_in)" ++
        if p.ancestors.isEmpty then " \x7b wptr = wptr_in; \x7d" else ";"),
      .line "bool get_delete_wrapper() \x7b return delete_wrapper; \x7d",
      .line ("void set_delete_wrapper(bool del_wrp_in) \x7b " ++ " ".intercalate
        ("delete_wrapper = del_wrp_in;" ::
          p.ancestors.map fun a => a ++ "::set_delete_wrapper(del_wrp_in);") ++ " \x7d")] := by
  simp [companionMembers]

theorem declares_companionMembers :
    List.Forall₂ Item.Declares p.companionMembers.items p.companionLayout := by
  have hwptr : (Item.line (p.delegate ++ "* wptr;")).Declares (.data (p.delegate ++ "* wptr")) := by
    simp [Item.Declares, String.append_assoc]
  have hget : (Item.line (p.delegate ++ "* get_wptr() \x7b return wptr; \x7d")).Declares
      (.function (p.delegate ++ "* get_wptr()")) :=
    Item.declares_inline "return wptr;" (by simp [String.append_assoc])
  -- the setter has its body here only where there are no ancestors
  have hset : (Item.line ("void set_wptr(" ++ p.delegate ++ "* wptr_in)" ++
      if p.ancestors.isEmpty then " \x7b wptr = wptr_in; \x7d" else ";")).Declares
      (.function ("void set_wptr(" ++ p.delegate ++ "* wptr_in)")) := by
    cases p.ancestors.isEmpty with
    | true => exact Item.declares_inline "wptr = wptr_in;" (by simp [String.append_assoc])
    | false => exact .inl rfl
  rw [items_companionMembers]
  exact .cons rfl (.cons hwptr (.cons rfl (.cons rfl (.cons hget (.cons hset
    (.cons (Item.declares_inline "return delete_wrapper;" rfl)
      (.cons (Item.declares_inline _ rfl) .nil)))))))

theorem declares_constructors :
    List.Forall₂ Item.Declares p.constructors.items p.constructorLayout := by
  have hcopy : (Item.function
      (if p.ancestors.isEmpty then p.constructorName ++ "(const " ++ p.interface ++ "& in)"
        else p.constructorName ++ "(const " ++ p.interface ++ "& in)" ++ " : " ++
          ", ".intercalate (p.ancestors.map (· ++ "(in)"))) p.clearing).Declares
      (.function (p.constructorName ++ "(const " ++ p.interface ++ "& in)")) := by
    cases p.ancestors.isEmpty with
    | true => exact Item.declares_function _ _
    | false => exact ⟨rfl, .inr ⟨_, rfl⟩⟩
  have hassign : List.Forall₂ Item.Declares (Code.line (p.interface ++ "& operator=(const " ++
      p.interface ++ "&) \x7b return *this; \x7d")).items
      [.function (p.interface ++ "& operator=(const " ++ p.interface ++ "&)")] := by
    rw [Code.items_line, if_neg (by simp)]
    exact .cons (Item.declares_inline "return *this;" (by simp [String.append_assoc])) .nil
  exact .cons (Item.declares_function _ _) (.cons hcopy hassign)

theorem declares_creationHook :
    List.Forall₂ Item.Declares (creationHook flavor).items [.dynamic creationSignature] := by
  cases flavor with
  | library => exact .cons ⟨rfl, rfl⟩ .nil
  | host => exact .cons (Item.declares_pure creationSignature) .nil

theorem declares_materializers :
    List.Forall₂ Item.Declares p.materializers.items p.materializerLayout :=
  .cons (Item.declares_function _ _) (.cons (Item.declares_function _ _) .nil)

theorem destructor_header :
    "virtual ~" ++ p.constructorName ++ "()" = "virtual " ++ p.destructorSignature := by
  simp [destructorSignature, ← String.append_assoc]

theorem declares_destructor :
    List.Forall₂ Item.Declares (p.destructor flavor).items [.dynamic p.destructorSignature] := by
  cases flavor with
  | library => exact .cons ⟨rfl, p.destructor_header⟩ .nil
  | host =>
      rw [destructor, Code.items_line, if_neg (by simp), p.destructor_header]
      exact .cons (.inr rfl) .nil

theorem items_members : (p.members flavor).items = p.companionMembers.items ++ [.line "public:"] ++
    p.constructors.items ++ (creationHook flavor).items ++ p.materializers.items ++
      (p.destructor flavor).items := by
  simp [members]

/-- **The protocol declares the same members in both builds.** -/
theorem declares_members : List.Forall₂ Item.Declares (p.members flavor).items p.layout := by
  rw [items_members, layout]
  refine List.rel_append (List.rel_append (List.rel_append (List.rel_append (List.rel_append
    p.declares_companionMembers ?_) p.declares_constructors) (declares_creationHook flavor))
    p.declares_materializers) (p.declares_destructor flavor)
  exact .cons rfl .nil

end InterfaceProtocol

namespace Context

variable (ctx : Context) (p : ClassPlan) (flavor : Flavor)

/-! ### The Interface -/

/-- The shadow member of a field, which keeps the companion of a pointer to a loaded class. -/
def shadowOf? (f : PlannedField) : Option String :=
  match f.loaded, f.shadow with
  | some names, some shadow => some (ctx.delegateName names .generated ++ "* " ++ shadow)
  | _, _ => none

/-- The shadow members. -/
def shadowData : List String := p.fields.filterMap ctx.shadowOf?

/-- The section of the shadow members, if there are any. -/
def shadowLayout : List ClassMember :=
  if p.shadows.isEmpty then [] else .access "protected:" :: (ctx.shadowData p).map .data

/-- The entry points as members. -/
def entryLayout : List ClassMember :=
  p.entryPoints.map fun e => .dynamic (e.signature ctx p .generated)

/-- The layout of an Interface: what it declares, in order. -/
def layout : List ClassMember :=
  ctx.shadowLayout p ++ [.access "public:"] ++ ctx.entryLayout p ++ (ctx.protocolOf p).layout

/-- A class without shadows has no shadow members. -/
theorem shadowData_eq_nil (h : p.shadows.isEmpty = true) : ctx.shadowData p = [] := by
  have hshadows := List.filterMap_eq_nil_iff.1 (List.isEmpty_iff.1 h)
  refine List.filterMap_eq_nil_iff.2 fun f hf => ?_
  rw [shadowOf?, hshadows f hf]
  cases f.loaded <;> rfl

/-- The data members are the shadows, the companion, and whether it is owned. -/
theorem data_layout : (ctx.layout p).filterMap ClassMember.data? =
    ctx.shadowData p ++ [p.names.delegate.name ++ "* wptr", "bool delete_wrapper"] := by
  have hshadows : (ctx.shadowLayout p).filterMap ClassMember.data? = ctx.shadowData p := by
    rw [shadowLayout]
    split
    · next hnone => exact (ctx.shadowData_eq_nil p hnone).symm
    · rw [List.filterMap_cons_none rfl, List.filterMap_map]
      exact List.filterMap_some
  have hentries : (ctx.entryLayout p).filterMap ClassMember.data? = [] := by
    rw [entryLayout, List.filterMap_map]
    exact List.filterMap_eq_nil_iff.2 fun _ _ => rfl
  rw [layout, List.filterMap_append, List.filterMap_append, List.filterMap_append, hshadows,
    hentries, List.append_nil, List.append_assoc]
  rfl

/-- The virtual functions are the entry points, the creation of the companion, and the
destructor. -/
theorem dynamic_layout : (ctx.layout p).filterMap ClassMember.dynamic? =
    p.entryPoints.map (fun e => e.signature ctx p .generated) ++
      [InterfaceProtocol.creationSignature, (ctx.protocolOf p).destructorSignature] := by
  have hshadows : (ctx.shadowLayout p).filterMap ClassMember.dynamic? = [] := by
    rw [shadowLayout]
    split
    · rfl
    · rw [List.filterMap_cons_none rfl, List.filterMap_map]
      exact List.filterMap_eq_nil_iff.2 fun _ _ => rfl
  have hentries : (ctx.entryLayout p).filterMap ClassMember.dynamic? =
      p.entryPoints.map fun e => e.signature ctx p .generated := by
    rw [entryLayout, List.filterMap_map, ← List.filterMap_eq_map]
    rfl
  rw [layout, List.filterMap_append, List.filterMap_append, List.filterMap_append, hshadows,
    hentries, List.nil_append]
  rfl

/-! ### The declarations -/

/-- The section of the shadow members. -/
def shadowSection : Code :=
  .onlyIf (!p.shadows.isEmpty) (.line "protected:" ++ .indented (ctx.shadowMembers p) ++ .blank)

/-- The body of an Interface. -/
def interfaceBody : Code :=
  ctx.shadowSection p ++ .line "public:" ++ .indented (ctx.pureVirtuals p) ++ .blank ++
    (ctx.protocolOf p).members flavor

/-- The head of an Interface, with its bases. -/
def interfaceHead : String := classHead p.record p.names.interface.name (ctx.interfaceBases p)

/-- The companions, declared before the Interface. -/
def companionItems : List Item :=
  (forwardDeclaration p.record p.names.interface.name).items ++
    (forwardDeclaration p.record p.names.delegate.name).items

/-- The library declares its hooks before the class. -/
theorem items_code : (ctx.interfaceOf p).code.items = companionItems p ++
    (hookDeclarations p.names.interface.name p.names.delegate.name).items ++
      [.block (ctx.interfaceHead p) (ctx.interfaceBody p .library) ";"] := by
  simp only [interfaceOf, interfaceCode, Code.items_append, Code.items_blank, List.append_nil]
  rfl

theorem items_hostCode : (ctx.interfaceOf p).hostCode.items = companionItems p ++
    [.block (ctx.interfaceHead p) (ctx.interfaceBody p .host) ";"] := by
  simp only [interfaceOf, interfaceCode, Code.items_append, Code.items_blank, List.append_nil]
  exact congrArg (· ++ _) (List.append_nil _)

theorem items_shadowMembers : (ctx.shadowMembers p).items =
    (ctx.shadowData p).map fun declaration => .line (declaration ++ ";") := by
  rw [shadowMembers, shadowData, Code.items_concat]
  induction p.fields with
  | nil => rfl
  | cons f rest ih =>
      rw [List.map_cons, List.flatMap_cons, ih, List.filterMap_cons, shadowOf?]
      cases f.loaded with
      | none => rfl
      | some names =>
          cases f.shadow with
          | none => rfl
          | some shadow =>
              rw [Code.items_line, if_neg (Code.append_ne_empty _ (by decide))]
              rfl

theorem items_shadowSection : (ctx.shadowSection p).items =
    if p.shadows.isEmpty then []
    else .line "protected:" ::
      (ctx.shadowData p).map fun declaration => .line (declaration ++ ";") := by
  rw [shadowSection, Code.items_onlyIf]
  cases p.shadows.isEmpty with
  | true => rfl
  | false => simp [items_shadowMembers]

theorem declares_shadowSection :
    List.Forall₂ Item.Declares (ctx.shadowSection p).items (ctx.shadowLayout p) := by
  rw [items_shadowSection, shadowLayout]
  cases p.shadows.isEmpty with
  | true => exact .nil
  | false => exact .cons rfl (Item.declares_map Item.declares_data _)

theorem declares_pureVirtuals :
    List.Forall₂ Item.Declares (ctx.pureVirtuals p).items (ctx.entryLayout p) := by
  rw [items_pureVirtuals, entryLayout]
  exact Item.declares_map (fun _ => Item.declares_pure _) _

theorem items_interfaceBody : (ctx.interfaceBody p flavor).items =
    (ctx.shadowSection p).items ++ [.line "public:"] ++ (ctx.pureVirtuals p).items ++
      ((ctx.protocolOf p).members flavor).items := by
  simp [interfaceBody]

/-- **The body of an Interface has its layout**, in both builds. -/
theorem declares_interfaceBody :
    List.Forall₂ Item.Declares (ctx.interfaceBody p flavor).items (ctx.layout p) := by
  rw [items_interfaceBody, layout]
  refine List.rel_append (List.rel_append (List.rel_append (ctx.declares_shadowSection p) ?_)
    (ctx.declares_pureVirtuals p)) ((ctx.protocolOf p).declares_members flavor)
  exact .cons rfl .nil

/-- The library's body and the host's are the same but for two virtual functions.  For the library
the one that creates the companion is defined, and the destructor ends the link; for the host the
first is pure and the second does nothing. -/
def SameButProtocol (destructor : String) (library host : Code) : Prop :=
  ∃ before between create destroy,
    library.items = before ++ [.block "virtual void init_wrapper()" create ""] ++ between ++
      [.block ("virtual " ++ destructor) destroy ""] ∧
    host.items = before ++ [.line "virtual void init_wrapper() =0;"] ++ between ++
      [.line ("virtual " ++ destructor ++ " \x7b\x7d")]

theorem sameButProtocol_interfaceBody :
    SameButProtocol (ctx.protocolOf p).destructorSignature (ctx.interfaceBody p .library)
      (ctx.interfaceBody p .host) := by
  let protocol := ctx.protocolOf p
  let before := (ctx.shadowSection p).items ++ [.line "public:"] ++ (ctx.pureVirtuals p).items ++
    protocol.companionMembers.items ++ [.line "public:"] ++ protocol.constructors.items
  have hbody (flavor : Flavor) : (ctx.interfaceBody p flavor).items =
      before ++ (InterfaceProtocol.creationHook flavor).items ++ protocol.materializers.items ++
        (protocol.destructor flavor).items := by
    simp [items_interfaceBody, InterfaceProtocol.items_members, protocol, before]
  obtain ⟨create, hcreate⟩ : ∃ create, (InterfaceProtocol.creationHook .library).items =
      [.block "virtual void init_wrapper()" create ""] := ⟨_, rfl⟩
  obtain ⟨destroy, hdestroy⟩ : ∃ destroy, (protocol.destructor .library).items =
      [.block ("virtual " ++ protocol.destructorSignature) destroy ""] :=
    ⟨_, by rw [← protocol.destructor_header]; rfl⟩
  have hempty : (protocol.destructor .host).items =
      [.line ("virtual " ++ protocol.destructorSignature ++ " \x7b\x7d")] := by
    rw [InterfaceProtocol.destructor, Code.items_line, if_neg (by simp), protocol.destructor_header]
  refine ⟨before, protocol.materializers.items, create, destroy, ?_, ?_⟩
  · rw [hbody, hcreate, hdestroy]
  · rw [hbody, hempty]
    rfl

/-- **Both builds of an Interface have the same layout.**  For every plan, the library's class and
the host's have one head and declare the same members in the same order: among them the data
members, and the virtual functions.  The library declares its hooks before the class, and in the
class all is the same but two virtual functions of the protocol. -/
theorem same_layout : ∃ library host : Code,
    (ctx.interfaceOf p).code.items = companionItems p ++
      (hookDeclarations p.names.interface.name p.names.delegate.name).items ++
        [.block (ctx.interfaceHead p) library ";"] ∧
    (ctx.interfaceOf p).hostCode.items = companionItems p ++
      [.block (ctx.interfaceHead p) host ";"] ∧
    List.Forall₂ Item.Declares library.items (ctx.layout p) ∧
    List.Forall₂ Item.Declares host.items (ctx.layout p) ∧
    (ctx.layout p).filterMap ClassMember.data? =
      ctx.shadowData p ++ [p.names.delegate.name ++ "* wptr", "bool delete_wrapper"] ∧
    (ctx.layout p).filterMap ClassMember.dynamic? =
      p.entryPoints.map (fun e => e.signature ctx p .generated) ++
        ["void init_wrapper()", (ctx.protocolOf p).destructorSignature] ∧
    SameButProtocol (ctx.protocolOf p).destructorSignature library host :=
  ⟨ctx.interfaceBody p .library, ctx.interfaceBody p .host, ctx.items_code p, ctx.items_hostCode p,
    ctx.declares_interfaceBody p .library, ctx.declares_interfaceBody p .host, ctx.data_layout p,
    ctx.dynamic_layout p, ctx.sameButProtocol_interfaceBody p⟩

end Context

end LoadBridge
