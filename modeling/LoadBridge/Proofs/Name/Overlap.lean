import Mathlib.Data.List.DropRight
import LoadBridge.Config.Basic
import LoadBridge.Proofs.Name.Component
import LoadBridge.Proofs.Name.Table

/-!
# Names — Where generated class names overlap

A valid configuration has two prefixes and two root classes, each unlike the other.  That keeps the
Interfaces apart from each other, the Delegates apart from each other, and the roots apart, whatever
the prefixes are.  It does not keep Interfaces apart from Delegates: where one prefix goes on after
the other, the Interface of one class can be the Delegate of another; nor companions from roots: a
prefix without an underscore makes a companion of a class `Base` a root.  For prefixes of which
identifiers can be made these are all the ways in which two names can be one
(`NameAffixes.Overlap`), and there is none where neither prefix starts with the other and both end
in an underscore (`NameAffixes.IsSeparate`).
-/

namespace LoadBridge

open Name

/-! ### Marked names -/

namespace QualifiedName

/-- Components in the scope, and one for the short name. -/
structure IsWellFormed (n : QualifiedName) : Prop where
  scope : ∀ s ∈ n.scope, IsComponent s.toList
  name : IsComponent n.name.toList

variable {a b : QualifiedName} {mark mark' text : String}

theorem toList_long_marked (n : QualifiedName) (mark : String) :
    (n.marked mark).long.toList = scopeText n.scope ++ (mark.toList ++ n.name.toList) := by
  rw [long, toList_join, marked, String.toList_append]

/-- **One mark tells names apart**, whatever it is. -/
theorem long_eq_of_marked (ha : a.IsWellFormed) (hb : b.IsWellFormed)
    (h : (a.marked mark).long = (b.marked mark).long) : a.long = b.long := by
  have htext := congrArg String.toList h
  rw [toList_long_marked, toList_long_marked, ← List.append_assoc, ← List.append_assoc] at htext
  obtain ⟨hscope, hname⟩ := scopeText_append_inj ha.name hb.name htext
  rw [← String.toList_inj, long, long, toList_join, toList_join, hscope, hname]

/-- Marks of which identifiers can be made give one name only within one scope. -/
theorem marked_eq_marked_iff (ha : a.IsWellFormed) (hb : b.IsWellFormed)
    (hmark : IsPlain mark.toList) (hmark' : IsPlain mark'.toList) :
    (a.marked mark).long = (b.marked mark').long ↔
      a.scope = b.scope ∧ mark ++ a.name = mark' ++ b.name := by
  rw [← String.toList_inj, toList_long_marked, toList_long_marked,
    ← @String.toList_inj (mark ++ a.name), String.toList_append, String.toList_append]
  constructor
  · intro h
    rw [← List.append_nil (scopeText a.scope), ← List.append_nil (scopeText b.scope)] at h
    obtain ⟨hscope, hname⟩ :=
      scopeText_append_inj (ha.name.append_left hmark) (hb.name.append_left hmark') h
    exact ⟨scopeText_inj ha.scope hb.scope hscope, hname⟩
  · rintro ⟨hscope, hname⟩
    rw [hscope, hname]

/-- A marked name is a plain one only in the global scope. -/
theorem marked_eq_plain_iff (htext : IsPlain text.toList) :
    (a.marked mark).long = text ↔ a.scope = [] ∧ mark ++ a.name = text := by
  rw [← String.toList_inj, toList_long_marked, ← @String.toList_inj (mark ++ a.name),
    String.toList_append]
  constructor
  · intro h
    have hscope : a.scope = [] := by
      cases hcase : a.scope with
      | nil => rfl
      | cons s rest =>
          have hcolon : ':' ∈ text.toList := by
            rw [← h, hcase, scopeText_cons]
            simp
          exact absurd hcolon (htext.not_mem rfl)
    rw [hscope] at h
    exact ⟨hscope, h⟩
  · rintro ⟨hscope, hname⟩
    rw [hscope, ← hname]
    rfl

end QualifiedName

/-! ### Roots -/

namespace NameAffixes

variable {mark text name : String}

/-- A mark without the underscores it ends in. -/
def stem (mark : String) : List Char := mark.toList.rdropWhile (· == '_')

theorem toList_rootOf (mark : String) : (rootOf mark).toList = stem mark ++ "Base".toList := by
  rw [rootOf, String.toList_append, String.toList_ofList, stem, List.rdropWhile]

theorem stem_isPrefix (mark : String) : stem mark <+: mark.toList := List.rdropWhile_prefix _ _

theorem getLast?_stem (mark : String) : (stem mark).getLast? ≠ some '_' := by
  intro hlast
  obtain ⟨hne, hlast⟩ := List.mem_getLast?_eq_getLast hlast
  exact List.rdropWhile_last_not _ _ hne (beq_iff_eq.2 hlast.symm)

theorem isPlain_rootOf (h : IsPlain mark.toList) : IsPlain (rootOf mark).toList := by
  rw [toList_rootOf]
  have hbase : IsPlain "Base".toList := by decide +kernel
  exact IsPlain.append (fun c hc => h c ((stem_isPrefix mark).subset hc)) hbase

/-- What ends in an underscore and starts a root starts what the root has before `Base`. -/
theorem prefix_stem (hmark : mark.toList.getLast? = some '_') (h : mark ++ name = rootOf text) :
    mark.toList <+: stem text := by
  have htext := congrArg String.toList h
  rw [String.toList_append, toList_rootOf] at htext
  obtain ⟨more, hstem, -⟩ | ⟨more, heq, hbase⟩ := List.append_eq_append_iff.1 htext
  · exact ⟨more, hstem.symm⟩
  · cases more with
    | nil => exact ⟨[], by rw [heq, List.append_nil, List.append_nil]⟩
    | cons c more =>
        rw [heq, List.getLast?_append_of_ne_nil _ (List.cons_ne_nil c more)] at hmark
        have hmem : '_' ∈ "Base".toList :=
          hbase ▸ List.mem_append_left _ (List.mem_of_getLast? hmark)
        exact absurd hmem (by decide +kernel)

/-- No mark that ends in an underscore starts what its own root has before `Base`. -/
theorem not_prefix_stem (hmark : mark.toList.getLast? = some '_') :
    ¬ mark.toList <+: stem mark := by
  intro h
  have heq : mark.toList = stem mark := h.eq_of_length_le (stem_isPrefix mark).length_le
  exact getLast?_stem mark (heq ▸ hmark)

/-! ### The names of a table -/

variable (a : NameAffixes) (targets : List QualifiedName)

/-- The ways in which two class names made for `targets` can be one. -/
inductive Overlap : Prop where
  /-- The Interface of one class and the Delegate of another one. -/
  | companions {c d : QualifiedName} (hc : c ∈ targets) (hd : d ∈ targets)
    (scope : c.scope = d.scope) (name : a.interfacePrefix ++ c.name = a.delegatePrefix ++ d.name)
  /-- A companion of a class of the global scope and a root. -/
  | root {c : QualifiedName} {mark root : String} (hc : c ∈ targets)
    (hmark : mark ∈ [a.interfacePrefix, a.delegatePrefix])
    (hroot : root ∈ [a.interfaceRoot, a.delegateRoot])
    (scope : c.scope = []) (name : mark ++ c.name = root)

/-- Prefixes that keep all names apart: both end in an underscore, and neither starts with the
other. -/
structure IsSeparate : Prop where
  interface_ends : a.interfacePrefix.toList.getLast? = some '_'
  delegate_ends : a.delegatePrefix.toList.getLast? = some '_'
  interface_apart : ¬ a.interfacePrefix.toList <+: a.delegatePrefix.toList
  delegate_apart : ¬ a.delegatePrefix.toList <+: a.interfacePrefix.toList

variable {a targets}

/-- **Separate prefixes leave nothing to overlap.** -/
theorem IsSeparate.not_overlap (h : a.IsSeparate) : ¬ a.Overlap targets := by
  intro hoverlap
  cases hoverlap with
  | companions _ _ _ hname =>
      have htext := congrArg String.toList hname
      rw [String.toList_append, String.toList_append] at htext
      obtain hle | hle := List.prefix_or_prefix_of_prefix (List.prefix_append ..)
        (htext ▸ List.prefix_append ..)
      · exact h.delegate_apart hle
      · exact h.interface_apart hle
  | root _ hmark hroot _ hname =>
      rw [List.mem_pair] at hmark hroot
      obtain rfl | rfl := hmark <;> obtain rfl | rfl := hroot
      · exact not_prefix_stem h.interface_ends (prefix_stem h.interface_ends hname)
      · exact h.interface_apart ((prefix_stem h.interface_ends hname).trans (stem_isPrefix _))
      · exact h.delegate_apart ((prefix_stem h.delegate_ends hname).trans (stem_isPrefix _))
      · exact not_prefix_stem h.delegate_ends (prefix_stem h.delegate_ends hname)

end NameAffixes

/-- The class names that are made for a table: those of the Interfaces, of the Delegates and of the
two roots. -/
def NameTable.classNames (t : NameTable) : List String :=
  t.entries.map (·.interface.long) ++ t.entries.map (·.delegate.long) ++
    [t.affixes.interfaceRoot, t.affixes.delegateRoot]

namespace NameTable

variable {a : NameAffixes} {outer : String} {targets : List QualifiedName}

/-- Classes with names of their own all have entries. -/
theorem entries_registerAll_distinct (h : (targets.map fun c => Name.key c.long).Nodup) :
    ((new a outer).registerAll targets).entries = targets.map (.derive a) := by
  rw [entries_registerAll, eraseDupsBy_eq_self]
  refine (List.pairwise_map.1 h).imp fun {c d} hne => ?_
  exact Bool.eq_false_iff.2 fun hsame => hne (Name.same_iff.1 hsame).symm

/-- One mark keeps the names of the classes apart. -/
theorem nodup_marked (mark : String) (hform : ∀ c ∈ targets, c.IsWellFormed)
    (h : (targets.map fun c => Name.key c.long).Nodup) :
    (targets.map fun c => (c.marked mark).long).Nodup := by
  refine (List.Nodup.of_map _ h).map_on fun c hc d hd hlong => ?_
  have hsame := QualifiedName.long_eq_of_marked (hform c hc) (hform d hd) hlong
  exact List.inj_on_of_nodup_map h hc hd (congrArg Name.key hsame)

/-- Where the Interfaces, the Delegates and the roots are apart, each by themselves, two class names
are one just where they overlap. -/
theorem classNames_nodup_iff (hinterface : IsPlain a.interfacePrefix.toList)
    (hdelegate : IsPlain a.delegatePrefix.toList) (hroots : a.interfaceRoot ≠ a.delegateRoot)
    (hform : ∀ c ∈ targets, c.IsWellFormed) (h : (targets.map fun c => Name.key c.long).Nodup) :
    ((new a outer).registerAll targets).classNames.Nodup ↔ ¬ a.Overlap targets := by
  have hnames : ((new a outer).registerAll targets).classNames =
      targets.map (fun c => (c.marked a.interfacePrefix).long) ++
        targets.map (fun c => (c.marked a.delegatePrefix).long) ++
          [a.interfaceRoot, a.delegateRoot] := by
    rw [classNames, entries_registerAll_distinct h, registerAll_affixes, List.map_map, List.map_map]
    rfl
  have hrootform : ∀ root ∈ [a.interfaceRoot, a.delegateRoot], IsPlain root.toList := by
    simp only [List.forall_mem_cons, List.not_mem_nil, false_implies, implies_true, and_true]
    exact ⟨NameAffixes.isPlain_rootOf hinterface, NameAffixes.isPlain_rootOf hdelegate⟩
  rw [hnames]
  constructor
  · intro hnodup hoverlap
    obtain ⟨hcompanions, -, hapart⟩ := List.nodup_append.1 hnodup
    cases hoverlap with
    | companions hc hd hscope hname =>
        refine (List.nodup_append.1 hcompanions).2.2 _ (List.mem_map_of_mem hc) _
          (List.mem_map_of_mem hd) ?_
        exact (QualifiedName.marked_eq_marked_iff (hform _ hc) (hform _ hd) hinterface hdelegate).2
          ⟨hscope, hname⟩
    | root hc hmark hroot hscope hname =>
        refine hapart _ ?_ _ hroot
          ((QualifiedName.marked_eq_plain_iff (hrootform _ hroot)).2 ⟨hscope, hname⟩)
        obtain rfl | rfl := List.mem_pair.1 hmark
        · exact List.mem_append_left _ (List.mem_map_of_mem hc)
        · exact List.mem_append_right _ (List.mem_map_of_mem hc)
  · intro hoverlap
    refine List.nodup_append.2 ⟨List.nodup_append.2 ⟨nodup_marked _ hform h,
      nodup_marked _ hform h, ?_⟩, by simpa using hroots, ?_⟩
    · intro _ hx _ hy heq
      obtain ⟨c, hc, rfl⟩ := List.mem_map.1 hx
      obtain ⟨d, hd, rfl⟩ := List.mem_map.1 hy
      obtain ⟨hscope, hname⟩ := (QualifiedName.marked_eq_marked_iff (hform c hc) (hform d hd)
        hinterface hdelegate).1 heq
      exact hoverlap (.companions hc hd hscope hname)
    · intro _ hx root hroot heq
      obtain hx | hx := List.mem_append.1 hx <;> obtain ⟨c, hc, rfl⟩ := List.mem_map.1 hx <;>
        obtain ⟨hscope, hname⟩ := (QualifiedName.marked_eq_plain_iff (hrootform root hroot)).1 heq
      · exact hoverlap (.root hc (by simp) hroot hscope hname)
      · exact hoverlap (.root hc (by simp) hroot hscope hname)

end NameTable

/-! ### Valid configurations -/

namespace Config

variable {config : Config} {targets : List QualifiedName}

/-- A valid configuration tells the roots apart. -/
theorem interfaceRoot_ne_delegateRoot (h : config.validate = .ok ()) :
    config.affixes.interfaceRoot ≠ config.affixes.delegateRoot := by
  intro hsame
  have hfault : config.fault? ≠ none := by
    unfold fault?
    simp only [hsame, if_true]
    split
    · exact Option.some_ne_none _
    · split <;> exact Option.some_ne_none _
  obtain ⟨fault, hfault⟩ := Option.ne_none_iff_exists'.1 hfault
  rw [validate, hfault] at h
  cases h

/-- The table of the classes `targets`. -/
def nameTable (config : Config) (targets : List QualifiedName) : NameTable :=
  (NameTable.new config.affixes config.output.backendNamespace).registerAll targets

/-- **Class names are one only where they overlap.**  A valid configuration keeps the names of
Interfaces apart, the names of Delegates apart, and the two roots.  Where identifiers can be made of
its prefixes, all class names are apart just where none overlap, which is so for every list of
classes where the prefixes are separate. -/
theorem classNames_distinct (h : config.validate = .ok ())
    (hform : ∀ c ∈ targets, c.IsWellFormed) (hkeys : (targets.map fun c => Name.key c.long).Nodup) :
    ((config.nameTable targets).entries.map (·.interface.long)).Nodup ∧
    ((config.nameTable targets).entries.map (·.delegate.long)).Nodup ∧
    config.affixes.interfaceRoot ≠ config.affixes.delegateRoot ∧
    (IsPlain config.affixes.interfacePrefix.toList → IsPlain config.affixes.delegatePrefix.toList →
      ((config.nameTable targets).classNames.Nodup ↔ ¬ config.affixes.Overlap targets) ∧
      (config.affixes.IsSeparate → (config.nameTable targets).classNames.Nodup)) := by
  have hroots := interfaceRoot_ne_delegateRoot h
  refine ⟨?_, ?_, hroots, fun hinterface hdelegate => ?_⟩
  · rw [nameTable, NameTable.entries_registerAll_distinct hkeys, List.map_map]
    exact NameTable.nodup_marked _ hform hkeys
  · rw [nameTable, NameTable.entries_registerAll_distinct hkeys, List.map_map]
    exact NameTable.nodup_marked _ hform hkeys
  · have hiff : (config.nameTable targets).classNames.Nodup ↔ ¬ config.affixes.Overlap targets :=
      NameTable.classNames_nodup_iff hinterface hdelegate hroots hform hkeys
    exact ⟨hiff, fun hseparate => hiff.2 hseparate.not_overlap⟩

/-- Classes of one short name in two scopes, and templates as a class and as a scope. -/
def scopedClasses : List QualifiedName :=
  [⟨[], "Base"⟩, ⟨["ns"], "Base"⟩, ⟨["ns"], "Pair<a::B,int>"⟩, ⟨["ns", "Pair<a::B,int>"], "Item"⟩]

theorem scopedClasses_wellFormed : ∀ c ∈ scopedClasses, c.IsWellFormed := by
  have hplain : ∀ s ∈ ["Base", "ns", "Item"], IsComponent s.toList := by
    have hchars : ∀ s ∈ ["Base", "ns", "Item"], IsPlain s.toList ∧ s.toList ≠ [] := by
      decide +kernel
    exact fun s hs => (hchars s hs).1.component (hchars s hs).2
  have hpair : IsComponent "Pair<a::B,int>".toList := by
    refine ⟨"Pair".toList, "<a::B,int>".toList, by decide +kernel, by decide +kernel,
      by decide +kernel, .inr ⟨"a::B,int".toList, by decide +kernel, ?_⟩⟩
    exact Text.balanced_of_not_mem (by decide +kernel) (by decide +kernel)
  have hbase := hplain "Base" (by simp)
  have hns := hplain "ns" (by simp)
  have hitem := hplain "Item" (by simp)
  simp only [scopedClasses, List.forall_mem_cons, List.not_mem_nil, false_implies, implies_true,
    and_true]
  exact ⟨⟨by simp, hbase⟩, ⟨by simpa using hns, hbase⟩, ⟨by simpa using hns, hpair⟩,
    ⟨by simpa using ⟨hns, hpair⟩, hitem⟩⟩

theorem classNames_distinct_default :
    ({} : Config).validate = .ok () ∧ (({} : Config).nameTable scopedClasses).classNames.Nodup := by
  have hvalid : ({} : Config).validate = .ok () := by rfl
  obtain ⟨-, -, -, hplain⟩ := classNames_distinct hvalid scopedClasses_wellFormed
    (by decide +kernel)
  have hseparate : ({} : Config).affixes.IsSeparate :=
    ⟨by decide +kernel, by decide +kernel, by decide +kernel, by decide +kernel⟩
  exact ⟨hvalid, (hplain (by decide +kernel) (by decide +kernel)).2 hseparate⟩

/-- Prefixes of which one goes on after the other. -/
def nestedPrefixes : Config where
  naming := { interfacePrefix := "A_", delegatePrefix := "A_B_" }

/-- **Class names overlap in a valid configuration**: the Interface of `B_X` is the Delegate of
`X`. -/
theorem classNames_overlap : nestedPrefixes.validate = .ok () ∧
    (∀ c ∈ [⟨[], "B_X"⟩, ⟨[], "X"⟩], QualifiedName.IsWellFormed c) ∧
    ([⟨[], "B_X"⟩, ⟨[], "X"⟩].map fun c : QualifiedName => Name.key c.long).Nodup ∧
    ¬ (nestedPrefixes.nameTable [⟨[], "B_X"⟩, ⟨[], "X"⟩]).classNames.Nodup := by
  have hplain : ∀ s ∈ ["B_X", "X"], IsPlain s.toList ∧ s.toList ≠ [] := by decide +kernel
  refine ⟨by rfl, ?_, by decide +kernel, by decide +kernel⟩
  simp only [List.forall_mem_cons, List.not_mem_nil, false_implies, implies_true, and_true] at *
  exact ⟨⟨by simp, hplain.1.1.component hplain.1.2⟩, ⟨by simp, hplain.2.1.component hplain.2.2⟩⟩

end Config

end LoadBridge
