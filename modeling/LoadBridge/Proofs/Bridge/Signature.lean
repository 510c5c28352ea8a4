import Mathlib.Algebra.BigOperators.Group.List.Basic
import Mathlib.Algebra.GroupWithZero.Nat
import LoadBridge.Bridge.Spelling

/-!
# Bridge — Members as the library declares them

The library declares a member with the extents of its arrays (`Context.memberSignature`).  Spelled
type by type, as generated code spells it, the member loses them (`Context.spelledSignature`).  A
declaration is longer than what is spelled by the extents (`TypeRef.length_declare`), so the two are
one text where nothing in the signature is an array, and only there
(`Context.spelledSignature_eq_iff`).
-/

namespace LoadBridge

/-! ### Types -/

namespace TypeRef

variable (t : TypeRef) (base declarator : String)

/-- By how much a declaration is longer than the type and the declarator. -/
def surplus : Nat :=
  if t.isArray then t.extentsText.length + (if t.isReference then 2 else 0) else 0

theorem surplus_eq_zero_iff : t.surplus = 0 ↔ t.isArray = false := by
  rw [surplus]
  cases harray : t.isArray with
  | false => simp
  | true =>
    obtain ⟨n, rest, hextents⟩ : ∃ n rest, t.extents = n :: rest :=
      List.exists_cons_of_ne_nil fun hnil => by simp [isArray, hnil] at harray
    have hbracket : "[".length = 1 := rfl
    have hlength : 1 ≤ t.extentsText.length := by
      rw [extentsText, hextents, List.map_cons, String.join_cons]
      simp only [String.length_append]
      omega
    simp only [if_true, Bool.true_eq_false, iff_false]
    omega

theorem length_declare : (t.declare base declarator).length =
    (t.renderWith base ++ " " ++ declarator).length + t.surplus := by
  have hmark : "&".length = 1 := rfl
  have hopened : "(&".length = 2 := rfl
  have hclosed : ")".length = 1 := rfl
  rw [declare, surplus]
  cases t.isArray with
  | false => rfl
  | true =>
    rw [renderWith, indirection]
    cases t.isReference <;>
      simp only [if_true, if_false, Bool.false_eq_true, String.length_append,
        String.length_empty] <;> omega

/-- The type and the declarator make the declaration, unless the type is an array. -/
theorem declare_eq_iff :
    t.declare base declarator = t.renderWith base ++ " " ++ declarator ↔ t.isArray = false := by
  constructor
  · intro h
    have hlength := t.length_declare base declarator
    rw [h] at hlength
    exact t.surplus_eq_zero_iff.1 (Nat.left_eq_add.1 hlength)
  · intro harray
    rw [declare, harray]
    rfl

end TypeRef

/-! ### Members -/

namespace Context

variable (ctx : Context) (m : MemberRecord) (returns : TypeRef)

/-- The arguments as the library declares them. -/
def declaredTexts (ctx : Context) (args : List Argument) : List String :=
  args.zipIdx.map fun (a, i) => a.type.declare (ctx.libraryBase a.type) (argName i a)

/-- What stands in the declaration of a member behind its return type. -/
def memberDeclarator (parameters : String) : String :=
  m.writtenName ++ "(" ++ parameters ++ ")" ++ if m.isConst then " const" else ""

/-- A member as the library declares it. -/
def memberSignature : String :=
  returns.declare (ctx.libraryBase returns)
    (memberDeclarator m (", ".intercalate (ctx.declaredTexts m.args)))

/-- A member in the types of the library, each spelled without the extents of arrays. -/
def spelledSignature : String :=
  ctx.libraryType returns ++ " " ++ memberDeclarator m (parameterList m.args ctx.libraryType)

theorem length_intercalate_add {α : Type} {separator : String} {as : List α} {f g : α → String}
    (more : α → Nat) (h : ∀ a, (f a).length = (g a).length + more a) :
    (separator.intercalate (as.map f)).length =
      (separator.intercalate (as.map g)).length + (as.map more).sum := by
  induction as with
  | nil => rfl
  | cons a rest ih =>
    cases rest with
    | nil => simpa using h a
    | cons b rest =>
      have ha := h a
      simp only [List.map_cons, String.intercalate_cons_cons, String.length_append,
        List.sum_cons] at ih ⊢
      omega

theorem length_declaredTexts (args : List Argument) :
    (", ".intercalate (ctx.declaredTexts args)).length =
      (parameterList args ctx.libraryType).length + (args.map fun a => a.type.surplus).sum := by
  rw [declaredTexts, parameterList, length_intercalate_add
    (g := fun x => ctx.libraryType x.1.type ++ " " ++ argName x.2 x.1)
    (fun x => x.1.type.surplus) fun x => x.1.type.length_declare _ _]
  rw [← List.zipIdx_map_fst 0 args, List.map_map, List.zipIdx_map_fst]
  rfl

theorem length_memberSignature : (ctx.memberSignature m returns).length =
    (ctx.spelledSignature m returns).length +
      (returns.surplus + (m.args.map fun a => a.type.surplus).sum) := by
  rw [memberSignature, TypeRef.length_declare, spelledSignature, libraryType]
  simp only [memberDeclarator, String.length_append, length_declaredTexts]
  omega

/-- **A member is declared as it is spelled**, if nothing in its signature is an array. -/
theorem spelledSignature_eq_iff :
    ctx.spelledSignature m returns = ctx.memberSignature m returns ↔
      ∀ type ∈ returns :: m.args.map Argument.type, type.isArray = false := by
  rw [List.forall_mem_cons, List.forall_mem_map]
  constructor
  · intro h
    have hlength := ctx.length_memberSignature m returns
    rw [← h] at hlength
    obtain ⟨hreturns, hargs⟩ := Nat.add_eq_zero_iff.1 (Nat.left_eq_add.1 hlength)
    rw [List.sum_eq_zero_iff_forall_eq_nat, List.forall_mem_map] at hargs
    exact ⟨returns.surplus_eq_zero_iff.1 hreturns,
      fun a ha => a.type.surplus_eq_zero_iff.1 (hargs a ha)⟩
  · rintro ⟨hreturns, hargs⟩
    have hparams : parameterList m.args ctx.libraryType =
        ", ".intercalate (ctx.declaredTexts m.args) := by
      refine congrArg _ (List.map_congr_left fun x hx => ?_)
      exact ((TypeRef.declare_eq_iff ..).2 (hargs _ (List.fst_mem_of_mem_zipIdx hx))).symm
    rw [memberSignature, (TypeRef.declare_eq_iff ..).2 hreturns, spelledSignature, hparams]
    rfl

end Context

end LoadBridge
