import LoadBridge.Code.Basic
import LoadBridge.Name.Affixes

/-!
# Ownership — The protocol in C++

The members that make generated classes keep the rules of the boundary.  An Interface knows its
companion (`wptr`) and whether it owns it (`delete_wrapper`); a Delegate knows its Interface object
(`BEptr`) and whether it owns it (`owns_BEptr`).  Each flag is kept for the class and for all its
loaded ancestors.
-/

namespace LoadBridge

/-- Which build a generated declaration is for. -/
inductive Flavor where
  /-- The library: members of the protocol have bodies. -/
  | library
  /-- The host: hooks stay pure virtual, so that calls go into the library. -/
  | host
  deriving DecidableEq, Inhabited

/-- The names that the protocol of an Interface is written with. -/
structure InterfaceProtocol where
  /-- The Interface class, with its template bracket. -/
  interface : String
  /-- The Delegate as the Interface spells it. -/
  delegate : String
  /-- The Interfaces of the loaded ancestors, furthest first. -/
  ancestors : List String := []
  /-- The shadow members. -/
  shadows : List String := []
  deriving DecidableEq, Inhabited

namespace InterfaceProtocol

/-- The members that every Interface declares for the protocol. -/
def memberNames : List String :=
  ["get_wptr", "set_wptr", "get_delete_wrapper", "set_delete_wrapper", "init_wrapper",
    "get_init_wptr", "get_init_wref"]

/-- The class name without its template bracket, as constructors are called. -/
def constructorName (p : InterfaceProtocol) : String := (Name.splitTemplate p.interface).1

/-- The companion and who owns it.  Where there are ancestors, setting the companion needs the
complete Delegate and is defined after it. -/
def companionMembers (p : InterfaceProtocol) : Code :=
  let setter := "void set_wptr(" ++ p.delegate ++ "* wptr_in)"
  let flags := "delete_wrapper = del_wrp_in;" ::
    p.ancestors.map fun a => a ++ "::set_delete_wrapper(del_wrp_in);"
  .line "private:" ++
    .indented (.line (p.delegate ++ "* wptr;") ++ .line "bool delete_wrapper;") ++
  .line "public:" ++
    .indented (
      .line (p.delegate ++ "* get_wptr() \x7b return wptr; \x7d") ++
      .line (setter ++ if p.ancestors.isEmpty then " \x7b wptr = wptr_in; \x7d" else ";") ++
      .line "bool get_delete_wrapper() \x7b return delete_wrapper; \x7d" ++
      .line ("void set_delete_wrapper(bool del_wrp_in) \x7b " ++ " ".intercalate flags ++ " \x7d"))

/-- What both constructors do: no companion, and nothing cached. -/
def clearing (p : InterfaceProtocol) : List String :=
  ["wptr = 0;", "delete_wrapper = false;"] ++ p.shadows.map (· ++ " = 0;")

/-- The default constructor, the copy constructor, which copies the ancestors, and an assignment
that keeps the link of its target. -/
def constructors (p : InterfaceProtocol) : Code :=
  let ctor := p.constructorName
  let copy := ctor ++ "(const " ++ p.interface ++ "& in)"
  let chain := ", ".intercalate (p.ancestors.map (· ++ "(in)"))
  .function (ctor ++ "()") p.clearing ++
  .blank ++
  .function (if p.ancestors.isEmpty then copy else copy ++ " : " ++ chain) p.clearing ++
  .blank ++
  .line (p.interface ++ "& operator=(const " ++ p.interface ++ "&) \x7b return *this; \x7d")

/-- The hook that makes the companion on first use. -/
def creationHook (flavor : Flavor) : Code :=
  match flavor with
  | .library =>
    .block "virtual void init_wrapper()"
      (.block "if (wptr == 0)"
        (.line "set_wptr(wrapper_creator(this));" ++ .line "set_delete_wrapper(true);") "") ""
  | .host => .line "virtual void init_wrapper() =0;"

/-- The companion, made on first use, by pointer and by reference. -/
def materializers (p : InterfaceProtocol) : Code :=
  .function (p.delegate ++ "* get_init_wptr()") ["init_wrapper();", "return wptr;"] ++
  .blank ++
  .function (p.delegate ++ "& get_init_wref()") ["init_wrapper();", "return *wptr;"]

/-- The destructor, which ends the link and deletes a companion that is owned. -/
def destructor (p : InterfaceProtocol) (flavor : Flavor) : Code :=
  let header := "virtual ~" ++ p.constructorName ++ "()"
  match flavor with
  | .library =>
    .block header
      (.block "if (wptr != 0)"
        (.line "set_delete_BEptr(wptr, false);" ++
          .block "if (delete_wrapper == true)" (.line "wrapper_deleter(wptr);") "" ++
          .line "wptr = 0;" ++
          .line "delete_wrapper = false;" ++
          .lines (p.ancestors.map (· ++ "::set_wptr(0);"))) "") ""
  | .host => .line (header ++ " \x7b\x7d")

/-- The members of the protocol in the body of an Interface. -/
def members (p : InterfaceProtocol) (flavor : Flavor) : Code :=
  p.companionMembers ++
  .blank ++
  .line "public:" ++
  .indented (
    p.constructors ++
    .blank ++
    creationHook flavor ++
    .blank ++
    p.materializers ++
    .blank ++
    p.destructor flavor)

/-- The members that are defined after the Delegate: none without ancestors. -/
def definitions (p : InterfaceProtocol) : Code :=
  if p.ancestors.isEmpty then .empty
  else
    .function ("inline void " ++ p.interface ++ "::set_wptr(" ++ p.delegate ++ "* wptr_in)")
      ("wptr = wptr_in;" :: p.ancestors.map (· ++ "::set_wptr(wptr_in);"))

end InterfaceProtocol

/-- The hooks that an Interface calls, declared before it. -/
def hookDeclarations (interface delegate : String) : Code :=
  .line (delegate ++ "* wrapper_creator(" ++ interface ++ "*);") ++
  .line ("void wrapper_deleter(" ++ delegate ++ "*);") ++
  .line ("void set_delete_BEptr(" ++ delegate ++ "*, bool);")

/-- The hooks, defined after the Delegate. -/
def hookDefinitions (interface delegate : String) : Code :=
  .function ("inline " ++ delegate ++ "* wrapper_creator(" ++ interface ++ "* in)")
    ["return new " ++ delegate ++ "(in);"] ++
  .blank ++
  .function ("inline void wrapper_deleter(" ++ delegate ++ "* in)") ["delete in;"] ++
  .blank ++
  .function ("inline void set_delete_BEptr(" ++ delegate ++ "* in, bool setting)")
    ["in->set_delete_BEptr(setting);"]

/-- What every constructor of a Delegate does once it has its Interface object: it becomes the
companion and is not owned. -/
def delegateLinkBody : List String :=
  ["get_BEptr()->set_wptr(this);", "get_BEptr()->set_delete_wrapper(false);"]

/-- The destructor of a Delegate, which ends the link and deletes an Interface object that is
owned. -/
def delegateDestructor (delegate : String) : Code :=
  .block ("inline " ++ delegate ++ "::~" ++ (Name.splitTemplate delegate).1 ++ "()")
    (.block "if (get_BEptr() != 0)"
      (.line "get_BEptr()->set_wptr(0);" ++
        .line "get_BEptr()->set_delete_wrapper(false);" ++
        .block "if (can_delete_BEptr())" (.line "delete BEptr;" ++ .line "BEptr = 0;") "") "" ++
      .line "set_delete_BEptr(false);") ""

/-- The classes at the root of all Interfaces and of all Delegates. -/
def rootClasses (a : NameAffixes) : Code :=
  let interface := a.interfaceRoot
  let delegate := a.delegateRoot
  .block ("class " ++ interface)
    (.line "public:" ++
      .indented (
        .line (interface ++ "() \x7b\x7d") ++
        .line ("virtual ~" ++ interface ++ "() \x7b\x7d"))) ";" ++
  .blank ++
  .block ("class " ++ delegate)
    (.line "protected:" ++
      .indented (.line (interface ++ "* BEptr;") ++ .line "bool owns_BEptr;") ++
      .blank ++
      .line "public:" ++
      .indented (
        .line (delegate ++ "(" ++ interface ++
          "* in, bool owns_target) : BEptr(in), owns_BEptr(owns_target) \x7b\x7d") ++
        .line "bool can_delete_BEptr() const \x7b return owns_BEptr; \x7d" ++
        .line "void set_delete_BEptr(bool setting) \x7b owns_BEptr = setting; \x7d" ++
        .line ("virtual ~" ++ delegate ++ "() \x7b\x7d"))) ";"

end LoadBridge
