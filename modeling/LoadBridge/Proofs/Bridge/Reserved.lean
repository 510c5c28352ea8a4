import Mathlib.Data.List.DropRight
import LoadBridge.Config.Basic
import LoadBridge.Proofs.Bridge.EntryPoint
import LoadBridge.Proofs.Bridge.Provenance

/-!
# Bridge — The names of generated members

What is added to the library's class goes by a name that ends in the code suffix
(`members_augmentationOf_eq`); the members of the protocol have fixed names without it.  So
generated members are apart from those of the user where no member of the class has a reserved name
(`NameAffixes.Reserves`).  Nothing makes sure of that.  A valid configuration may even have an empty
suffix, and then the forwarder of a method goes by the name of the method itself, which it calls;
the forwarder of an operator never does (`interfaceName_eq_writtenName_iff`).
-/

namespace LoadBridge

open Text

/-- What the name of a generated member is made of, before the suffix: an operator goes by its
identifier. -/
def MemberRecord.stem (m : MemberRecord) : String :=
  match m.kind with
  | .operator => "operator_" ++ (Operator.identifier? m.name).getD "unnamed"
  | _ => m.name

/-- What the name of an entry point that is added is made of. -/
def EntryPoint.stem : EntryPoint → String
  | .method m => m.member.stem
  | .accessor f => f.member.name ++ "_ref"
  | .pointerCopy => "pointer_copy"
  | .pointerAssign => "pointer_assign"

/-- A name that a generated member can have: it ends in the suffix, or is one of the protocol. -/
def NameAffixes.Reserves (a : NameAffixes) (name : String) : Prop :=
  a.codeSuffix.toList <:+ name.toList ∨ name ∈ InterfaceProtocol.memberNames

theorem NameAffixes.isSuffix_suffixed (a : NameAffixes) (name : String) :
    a.codeSuffix.toList <:+ (a.suffixed name).toList := by
  rw [suffixed, String.toList_append]
  exact List.suffix_append ..

/-! ### Operators -/

/-- No operator with an identifier is written with an underscore first. -/
theorem Operator.identifier?_underscore {name : String} {rest : List Char}
    (h : name.toList = '_' :: rest) : identifier? name = none := by
  have htrim (cs : List Char) : ∃ more, trim ('_' :: cs) = '_' :: more := by
    have hstart : trimStart ('_' :: cs) = '_' :: cs := List.dropWhile_cons_of_neg (by decide)
    rw [trim, hstart]
    -- what is left of it starts it, and the underscore is left
    have hle : trimEnd ('_' :: cs) <+: '_' :: cs := List.rdropWhile_prefix isBlank _
    cases hend : trimEnd ('_' :: cs) with
    | nil =>
        have hblank := List.rdropWhile_eq_nil_iff.1 hend '_' List.mem_cons_self
        exact absurd hblank (by decide)
    | cons c more =>
        rw [hend] at hle
        exact ⟨more, congrArg (· :: more) (List.cons_prefix_cons.1 hle).1⟩
  obtain ⟨bare, hbare⟩ := htrim rest
  have hsymbol : ∃ more, symbolOf name = .ofList ('_' :: more) := by
    obtain ⟨more, hmore⟩ := htrim bare
    refine ⟨more, ?_⟩
    rw [symbolOf, h, hbare]
    exact congrArg String.ofList hmore
  obtain ⟨more, hmore⟩ := hsymbol
  rw [identifier?, hmore, List.lookup_eq_none_iff]
  intro entry hentry
  have hhead : ∀ e ∈ identifiers, e.1.toList.head? ≠ some '_' := by decide +kernel
  refine bne_iff_ne.2 fun heq => hhead entry hentry ?_
  rw [← heq, String.toList_ofList]
  rfl

namespace Context

variable {ctx : Context} {c : ClassRecord} {plan : ClassPlan} {own : List MemberRecord}
  {p : PlannedCallable} {e : EntryPoint}

theorem interfaceMemberName_suffixed (ctx : Context) (m : MemberRecord) :
    ctx.interfaceMemberName m true = ctx.affixes.suffixed m.stem := by
  rw [interfaceMemberName, if_pos rfl, MemberRecord.stem]
  cases m.kind <;> rfl

theorem mem_forwarded : p ∈ plan.forwarded ↔ p ∈ plan.methods ∧ p.needsForwarder = true :=
  List.mem_filter

theorem interfaceName_of_mem_forwarded (h : ctx.planClass c = .ok plan) (hp : p ∈ plan.forwarded) :
    p.interfaceName = ctx.affixes.suffixed p.member.stem := by
  obtain ⟨hp, hforwarder⟩ := mem_forwarded.1 hp
  rw [(of_mem_methods h hp).name, hforwarder, interfaceMemberName_suffixed]

/-- **What is added goes by a suffixed name.** -/
theorem name_of_mem_addedEntryPoints (h : ctx.planClass c = .ok plan)
    (he : e ∈ plan.addedEntryPoints) : e.name ctx = ctx.affixes.suffixed e.stem := by
  obtain ⟨he, hadded⟩ := List.mem_filter.1 he
  cases e with
  | method m =>
      have hm : m ∈ plan.methods := by simpa [ClassPlan.entryPoints] using he
      exact interfaceName_of_mem_forwarded h (mem_forwarded.2 ⟨hm, hadded⟩)
  | accessor f =>
      have hf : f ∈ plan.fields := by simpa [ClassPlan.entryPoints] using he
      exact (of_mem_fields h hf).accessor
  | pointerCopy | pointerAssign => rfl

/-- What is added to the library's class, by name. -/
theorem members_augmentationOf_eq (h : ctx.planClass c = .ok plan) :
    (ctx.augmentationOf plan plan.flags.copyable plan.flags.assignable).members =
      plan.addedEntryPoints.map fun e => ctx.affixes.suffixed e.stem := by
  rw [members_augmentationOf]
  exact List.map_congr_left fun e he => name_of_mem_addedEntryPoints h he

/-- **A forwarder goes by the name of what it calls** only for a method, and only where the suffix
is empty. -/
theorem interfaceName_eq_writtenName_iff (h : ctx.planClass c = .ok plan)
    (hp : p ∈ plan.forwarded) :
    p.interfaceName = p.writtenName ↔ p.member.kind = .method ∧ ctx.affixes.codeSuffix = "" := by
  have hmethods := (mem_forwarded.1 hp).1
  rw [interfaceName_of_mem_forwarded h hp, PlannedCallable.writtenName, NameAffixes.suffixed]
  obtain hkind | hkind := (of_mem_methods h hmethods).kind
  · rw [MemberRecord.stem, MemberRecord.writtenName, hkind]
    simp only [true_and]
    exact String.append_eq_left_iff
  · obtain ⟨_, _, members, _, -, -, hmembers, -, -⟩ := planClass_eq_ok_iff.1 h
    obtain ⟨item, -, hmember, -, -, hnamed⟩ := exists_item_of_mem_methods h hmembers hmethods
    rw [hkind]
    refine iff_of_false (fun heq => ?_) fun hmethod => nomatch hmethod.1
    -- the name of the operator would go on after the word with an underscore
    have hname : ∃ rest, p.member.name.toList = '_' :: rest := by
      rw [MemberRecord.stem, MemberRecord.writtenName, hkind, ← String.toList_inj] at heq
      simp only [String.toList_append, List.append_assoc] at heq
      exact ⟨_, (@List.append_cancel_left _ "operator".toList _ _ heq).symm⟩
    obtain ⟨rest, hrest⟩ := hname
    rw [← hmember, MemberRecord.isUnnamedOperator, hkind, Operator.identifier?_underscore hrest]
      at hnamed
    cases hnamed

/-- **Generated members are apart from those of the user where none of these has a reserved name.**
What is added goes by suffixed names.  Where no member of the class itself has a reserved name, no
name that is added and none of the protocol is that of such a member, so a forwarder calls nothing
that is generated.  Whatever the names are, a forwarder goes by the name of what it calls only for a
method, and only where the suffix is empty. -/
theorem generated_apart (h : ctx.planClass c = .ok plan) (hc : c ∈ ctx.table.classes)
    (hown : ctx.table.membersOf c = .ok own) :
    (ctx.augmentationOf plan plan.flags.copyable plan.flags.assignable).members =
      plan.addedEntryPoints.map (fun e => ctx.affixes.suffixed e.stem) ∧
    ((∀ m ∈ own, ¬ ctx.affixes.Reserves m.writtenName) →
      (∀ m ∈ own, m.writtenName ∉
        (ctx.augmentationOf plan plan.flags.copyable plan.flags.assignable).members ++
          InterfaceProtocol.memberNames) ∧
      ∀ p ∈ plan.forwarded, p.inherited = false → p.writtenName ∉
        (ctx.augmentationOf plan plan.flags.copyable plan.flags.assignable).members ++
          InterfaceProtocol.memberNames) ∧
    ∀ p ∈ plan.forwarded,
      (p.interfaceName = p.writtenName ↔
        p.member.kind = .method ∧ ctx.affixes.codeSuffix = "") := by
  have hmembers := members_augmentationOf_eq h
  refine ⟨hmembers, fun hfree => ?_, fun p hp => interfaceName_eq_writtenName_iff h hp⟩
  have hapart : ∀ m ∈ own, m.writtenName ∉
      (ctx.augmentationOf plan plan.flags.copyable plan.flags.assignable).members ++
        InterfaceProtocol.memberNames := by
    intro m hm hname
    obtain hadded | hprotocol := List.mem_append.1 hname
    · rw [hmembers] at hadded
      obtain ⟨e, -, heq⟩ := List.mem_map.1 hadded
      exact hfree m hm (.inl (heq ▸ ctx.affixes.isSuffix_suffixed e.stem))
    · exact hfree m hm (.inr hprotocol)
  refine ⟨hapart, fun p hp hinherited => ?_⟩
  exact hapart _ (mem_own_of_not_inherited h hc hown (mem_forwarded.1 hp).1 hinherited)

/-! ### A class with a method, an operator and a field -/

/-- A class with a method that has a default, an operator on the class itself, and a field. -/
def counterRecord : ClassRecord where
  id := ⟨"_1"⟩
  name := "Counter"
  members := [⟨"_2"⟩, ⟨"_3"⟩, ⟨"_4"⟩]

def counterNext : MemberRecord where
  id := ⟨"_2"⟩
  name := "next"
  kind := .method
  context := ⟨"_1"⟩
  type := some (.named "int")
  args := [{ type := .named "int", hasDefault := true }]

def counterTable : SymbolTable where
  records :=
    let counter := TypeRef.of ⟨"_1"⟩ [] "Counter"
    [.ofClass counterRecord,
      .ofMember counterNext,
      .ofMember { id := ⟨"_3"⟩, name := "+", kind := .operator, context := ⟨"_1"⟩
                  type := some counter, args := [{ type := counter.constant.reference }] },
      .ofMember { id := ⟨"_4"⟩, name := "total", kind := .field, context := ⟨"_1"⟩
                  type := some (.named "int") }]
  distinct := by decide

def suffixConfig (suffix : String) : Config where
  naming := { codeSuffix := suffix }

/-- The class is loaded. -/
def counterContext (suffix : String) : Context :=
  (new counterTable (suffixConfig suffix)).register [⟨[], "Counter"⟩]

theorem names_membersOf_counter :
    (counterTable.membersOf counterRecord).map (fun own => own.map MemberRecord.writtenName) =
      .ok ["next", "operator+", "total"] := by
  cbv

theorem generated_apart_counter : ∃ plan own,
    (counterContext "_BE").planClass counterRecord = .ok plan ∧
    counterTable.membersOf counterRecord = .ok own ∧
    own.map MemberRecord.writtenName = ["next", "operator+", "total"] ∧
    ((counterContext "_BE").augmentationOf plan plan.flags.copyable plan.flags.assignable).members =
      ["next_BE", "operator_plus_BE", "total_ref_BE"] ∧
    ∀ m ∈ own, m.writtenName ∉
      ((counterContext "_BE").augmentationOf plan plan.flags.copyable plan.flags.assignable).members
        ++ InterfaceProtocol.memberNames := by
  have hplan : ((counterContext "_BE").planClass counterRecord).map (fun plan =>
      plan.addedEntryPoints.map (EntryPoint.name (counterContext "_BE"))) =
      .ok ["next_BE", "operator_plus_BE", "total_ref_BE"] :=
    toOption_eq_some.1 (by decide +kernel)
  obtain ⟨plan, hplan, hadded⟩ := map_eq_ok.1 hplan
  obtain ⟨own, hown, hnames⟩ := map_eq_ok.1 names_membersOf_counter
  have hclass : counterRecord ∈ (counterContext "_BE").table.classes :=
    SymbolTable.mem_classes.2 List.mem_cons_self
  have hnone : ∀ name ∈ ["next", "operator+", "total"],
      ¬ ({ codeSuffix := "_BE" } : NameAffixes).Reserves name := by
    unfold NameAffixes.Reserves
    decide +kernel
  obtain ⟨-, hfree, -⟩ := generated_apart hplan hclass hown
  refine ⟨plan, own, hplan, hown, hnames, ?_, (hfree fun m hm => ?_).1⟩
  · rw [members_augmentationOf, hadded]
  · exact hnone _ (hnames ▸ List.mem_map_of_mem hm)

/-- **A forwarder can call itself** in a valid configuration: that of `next` without its argument is
`next`. -/
theorem forwarder_calls_itself : (suffixConfig "").validate = .ok () ∧ ∃ plan own p,
    (counterContext "").planClass counterRecord = .ok plan ∧
    counterTable.membersOf counterRecord = .ok own ∧
    p ∈ plan.methods ∧ p.needsForwarder = true ∧ p.interfaceName = p.writtenName ∧
    p.member ∈ own ∧ p.writtenName ∈
      ((counterContext "").augmentationOf plan plan.flags.copyable plan.flags.assignable).members :=
    by
  have hplan : ((counterContext "").planClass counterRecord).map (fun plan =>
      (plan.forwarded.map fun p => (p.interfaceName, p.writtenName, p.inherited),
        plan.addedEntryPoints.map (EntryPoint.name (counterContext "")))) =
      .ok ([("next", "next", false), ("operator_plus", "operator+", false)],
        ["next", "operator_plus", "total_ref"]) :=
    toOption_eq_some.1 (by decide +kernel)
  obtain ⟨plan, hplan, hnames⟩ := map_eq_ok.1 hplan
  obtain ⟨hforwarded, hadded⟩ := Prod.mk.inj hnames
  obtain ⟨own, hown, -⟩ := map_eq_ok.1 names_membersOf_counter
  obtain ⟨p, hp, hnext⟩ : ∃ p ∈ plan.forwarded,
      (p.interfaceName, p.writtenName, p.inherited) = ("next", "next", false) :=
    List.mem_map.1 (hforwarded ▸ List.mem_cons_self)
  obtain ⟨hname, hwritten, hinherited⟩ : p.interfaceName = "next" ∧ p.writtenName = "next" ∧
      p.inherited = false := by simpa using hnext
  obtain ⟨hmethod, hforwarder⟩ := mem_forwarded.1 hp
  have hmember : p.member ∈ own := mem_own_of_not_inherited hplan
    (SymbolTable.mem_classes.2 List.mem_cons_self) hown hmethod hinherited
  refine ⟨by cbv, plan, own, p, hplan, hown, hmethod, hforwarder, hname.trans hwritten.symm,
    hmember, ?_⟩
  rw [members_augmentationOf, hadded, hwritten]
  exact List.mem_cons_self

end Context

end LoadBridge
