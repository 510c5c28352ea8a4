import LoadBridge.Ownership.Protocol
import LoadBridge.Proofs.Code.Nested

/-!
# Ownership — The protocol is well nested

Where no name has a brace in it, the members of the ownership protocol are well nested code.
-/

namespace LoadBridge

open Text

namespace InterfaceProtocol

variable {p : InterfaceProtocol} {flavor : Flavor}

/-- No name of the protocol has a brace in it. -/
structure Clean (p : InterfaceProtocol) : Prop where
  interface : Braceless p.interface
  delegate : Braceless p.delegate
  ancestors : ∀ a ∈ p.ancestors, Braceless a
  shadows : ∀ s ∈ p.shadows, Braceless s

theorem Clean.constructorName (h : p.Clean) : Braceless p.constructorName :=
  braceless_splitTemplate h.interface

/-- The flags of a class and of its ancestors are set on one line, in braces. -/
theorem nested_flagSetter (h : p.Clean) : Text.Nested
    ("void set_delete_wrapper(bool del_wrp_in) \x7b " ++ " ".intercalate
      ("delete_wrapper = del_wrp_in;" ::
        p.ancestors.map fun a => a ++ "::set_delete_wrapper(del_wrp_in);") ++ " \x7d") := by
  have hhead : "void set_delete_wrapper(bool del_wrp_in) \x7b " =
      "void set_delete_wrapper(bool del_wrp_in) " ++ "\x7b" ++ " " := by decide
  have htail : " \x7d" = " " ++ "\x7d" ++ "" := by decide
  refine .between hhead htail (by decide) ?_ (by decide)
  exact Braceless.nested (by simp +decide +contextual [h.ancestors])

theorem nested_companionMembers (h : p.Clean) : p.companionMembers.Nested := by
  simp +decide +contextual [companionMembers, h.delegate, nested_flagSetter h]

theorem nested_constructors (h : p.Clean) : p.constructors.Nested := by
  simp +decide +contextual [constructors, clearing, h.constructorName, h.interface,
    h.shadows, h.ancestors]

theorem nested_creationHook : (creationHook flavor).Nested := by
  cases flavor <;> simp +decide [creationHook]

theorem nested_materializers (h : p.Clean) : p.materializers.Nested := by
  simp +decide [materializers, h.delegate]

theorem nested_destructor (h : p.Clean) : (p.destructor flavor).Nested := by
  cases flavor <;> simp +decide +contextual [destructor, h.constructorName, h.ancestors]

theorem nested_definitions (h : p.Clean) : p.definitions.Nested := by
  rw [definitions]
  split
  · exact trivial
  · simp +decide +contextual [h.interface, h.delegate, h.ancestors]

theorem nested_members (h : p.Clean) : (p.members flavor).Nested := by
  simp +decide [members, nested_companionMembers h, nested_constructors h, nested_creationHook,
    nested_materializers h, nested_destructor h]

end InterfaceProtocol

section

variable {interface delegate : String} {a : NameAffixes}

theorem nested_hookDeclarations (hi : Braceless interface) (hd : Braceless delegate) :
    (hookDeclarations interface delegate).Nested := by
  simp +decide [hookDeclarations, hi, hd]

theorem nested_hookDefinitions (hi : Braceless interface) (hd : Braceless delegate) :
    (hookDefinitions interface delegate).Nested := by
  simp +decide [hookDefinitions, hi, hd]

theorem nested_delegateDestructor (hd : Braceless delegate) :
    (delegateDestructor delegate).Nested := by
  simp +decide [delegateDestructor, hd]

theorem nested_rootClasses (hi : Braceless a.interfacePrefix) (hd : Braceless a.delegatePrefix) :
    (rootClasses a).Nested := by
  simp +decide [rootClasses, NameAffixes.interfaceRoot, NameAffixes.delegateRoot, hi, hd]

end

end LoadBridge
