import LoadBridge.Proofs.Symbol.Table

/-!
# Symbols — Well-formed tables

A front end may promise that its tables can be trusted (`SymbolTable.WellFormed`): what a class
names as a member is one, a record that needs a type has it, and the base of a type is no record or
that of a type.  Nothing is said about the parents of a class.
-/

namespace LoadBridge

namespace Record

/-- The types that a record mentions. -/
def types : Record → List TypeRef
  | .ofMember m => m.type.toList ++ m.args.map Argument.type
  | .ofFunction f => f.returns.toList ++ f.args.map Argument.type
  | _ => []

/-- Whether a record has the type it needs. -/
def isTyped : Record → Bool
  | .ofMember m =>
    match m.kind with
    | .method | .operator | .field => m.type.isSome
    | .constructor | .destructor => true
  | .ofFunction f => f.returns.isSome
  | _ => true

/-- Whether a record is that of a type. -/
def isType : Record → Bool
  | .ofClass _ | .ofFundamental _ | .ofEnumeration _ => true
  | _ => false

end Record

namespace SymbolTable

variable {t : SymbolTable} {c : ClassRecord} {m : MemberRecord} {f : FunctionRecord}

/-- The table has no record of the base of a type, or that of a type. -/
def HasBase (t : SymbolTable) (type : TypeRef) : Prop :=
  ∀ r, type.element.bind t.lookup = some r → r.isType = true

/-- A table whose classes name members as their members, and whose records have the types they need,
over bases that are types. -/
structure WellFormed (t : SymbolTable) : Prop where
  members : ∀ c ∈ t.classes, ∀ id ∈ c.members, ∃ m, t.lookup id = some (.ofMember m)
  typed : ∀ r ∈ t.records, r.isTyped = true
  bases : ∀ r ∈ t.records, ∀ type ∈ r.types, t.HasBase type

/-- The members of a class can be read. -/
theorem WellFormed.succeeds_membersOf (h : t.WellFormed) (hc : c ∈ t.classes) :
    Succeeds (t.membersOf c) := by
  refine succeeds_mapM fun id hid => ?_
  obtain ⟨m, hm⟩ := h.members c hc id hid
  exact ⟨m, memberWith_eq_ok_iff.2 hm⟩

/-- A member whose type is needed has one, over a base that is a type. -/
theorem WellFormed.valueType (h : t.WellFormed) (hm : .ofMember m ∈ t.records)
    (hkind : m.kind = .method ∨ m.kind = .operator ∨ m.kind = .field) :
    ∃ type, m.valueType = .ok type ∧ t.HasBase type := by
  have htyped := h.typed _ hm
  obtain ⟨type, htype⟩ : ∃ type, m.type = some type := by
    refine Option.isSome_iff_exists.1 ?_
    rcases hkind with hkind | hkind | hkind <;> simpa only [Record.isTyped, hkind] using htyped
  refine ⟨type, by rw [MemberRecord.valueType, htype], h.bases _ hm type ?_⟩
  simp [Record.types, htype]

theorem WellFormed.memberArgs (h : t.WellFormed) (hm : .ofMember m ∈ t.records) :
    ∀ a ∈ m.args, t.HasBase a.type := fun _ ha =>
  h.bases _ hm _ (List.mem_append_right _ (List.mem_map_of_mem ha))

theorem WellFormed.returnType (h : t.WellFormed) (hf : f ∈ t.functions) :
    ∃ type, f.returnType = .ok type ∧ t.HasBase type := by
  have hmem := mem_records_of_mem_functions hf
  obtain ⟨type, htype⟩ := Option.isSome_iff_exists.1 (h.typed _ hmem)
  refine ⟨type, by rw [FunctionRecord.returnType, htype], h.bases _ hmem type ?_⟩
  simp [Record.types, htype]

theorem WellFormed.functionArgs (h : t.WellFormed) (hf : f ∈ t.functions) :
    ∀ a ∈ f.args, t.HasBase a.type := fun _ ha =>
  h.bases _ (mem_records_of_mem_functions hf) _ (List.mem_append_right _ (List.mem_map_of_mem ha))

end SymbolTable

end LoadBridge
