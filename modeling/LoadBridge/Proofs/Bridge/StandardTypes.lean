import LoadBridge.Bridge.Verdict
import LoadBridge.Proofs.Name.Arguments
import LoadBridge.Proofs.Outcome

/-!
# Bridge — Types of the standard library

A type that is told by its name is one of the standard library where the name is neither loaded nor
known and starts with `std::`.  Such a type is accepted as it stands, and its template arguments are
not looked at.  So whether a class of the library crosses the boundary in it depends on what is
written in its brackets (`Context.Holds`).  No class does that is not named in the text of the
base.  Where the base is written as a template over uses of types, the classes that these name do,
and no others: they may all cross exactly if each use names only classes that may
(`Context.std_harmless_iff`).  A container of a class that may not is accepted all the same
(`Context.std_holds_library_class`).
-/

namespace LoadBridge

open Text

namespace Context

variable {ctx : Context} {type : TypeRef} {c : ClassRecord}

/-- A type is told by its name when it has no record and is not built in, or its record is that of a
class. -/
def IsToldByName (ctx : Context) (type : TypeRef) : Prop :=
  match type.element with
  | none => fundamentalTypes.contains type.qualifiedName = false
  | some id => ∃ c, ctx.table.lookup id = some (.ofClass c)

theorem IsToldByName.classify (h : ctx.IsToldByName type) :
    ctx.classify type = .ok (ctx.classifyName (ctx.baseName type)) := by
  cases helement : type.element with
  | none =>
      simp only [IsToldByName, helement] at h
      simp only [Context.classify, baseName, elementOf, helement, h, Bool.false_eq_true, if_false,
        Option.bind_none, Option.getD_none]
  | some id =>
      simp only [IsToldByName, helement] at h
      obtain ⟨c, hc⟩ := h
      simp only [Context.classify, baseName, elementOf, helement, Option.bind_some, hc,
        Record.qualifiedName?, Option.getD_some]

/-- A type that is not told by its name is built in, an enumeration, or without a record. -/
theorem isToldByName_or {cls : TypeClass} (h : ctx.classify type = .ok cls) :
    ctx.IsToldByName type ∨ cls = .fundamental ∨ cls = .enumeration ∨ cls = .unresolved := by
  rw [IsToldByName]
  rw [Context.classify] at h
  cases helement : type.element with
  | none =>
      simp only [helement] at h ⊢
      split at h
      · exact .inr (.inl (Except.ok.inj h).symm)
      · next hname => exact .inl (by simpa using hname)
  | some id =>
      simp only [helement] at h ⊢
      split at h
      · exact .inr (.inr (.inr (Except.ok.inj h).symm))
      · exact .inr (.inl (Except.ok.inj h).symm)
      · exact .inr (.inr (.inl (Except.ok.inj h).symm))
      · next c hc => exact .inl ⟨c, hc⟩
      · cases h

/-- A name is that of a loaded class where the table of names has it, without the `::` it starts
with. -/
theorem classifyName_eq_loaded_iff {name : String} :
    ctx.classifyName name = .loaded ↔ ctx.names.isLoaded (Name.relative name) = true := by
  rw [classifyName]
  cases ctx.names.isLoaded (Name.relative name) <;>
    cases ctx.config.isKnownClass (Name.relative name) <;>
    cases Text.startsWith (Name.relative name) "std::" <;> simp

/-- A type of the standard library is accepted unless it is a pointer to a pointer. -/
theorem checkType_eq_accepted_iff_of_std (h : ctx.classify type = .ok .std) :
    ctx.checkType type = .ok .accepted ↔ type.pointerDepth ≤ 1 := by
  rw [checkType, h]
  split
  · next hdeep => simpa using hdeep
  · next hshallow => exact ⟨fun _ => by simpa using hshallow, fun _ => rfl⟩

/-! ### Classes in template arguments -/

/-- A template argument of the base, at any depth, names this class of the table. -/
def Holds (ctx : Context) (type : TypeRef) (c : ClassRecord) : Prop :=
  c ∈ ctx.table.classes ∧
    ∃ name, Name.Within (ctx.baseName type) name ∧ Name.same name c.qualifiedName = true

/-- The class may cross the boundary as itself: it is known, or one of the standard library. -/
def IsHarmless (ctx : Context) (c : ClassRecord) : Prop :=
  ctx.classifyName c.qualifiedName = .known ∨ ctx.classifyName c.qualifiedName = .std

instance (ctx : Context) (c : ClassRecord) : Decidable (ctx.IsHarmless c) :=
  inferInstanceAs (Decidable (_ ∨ _))

/-- The key of a class that is held stands in the text of the base. -/
theorem Holds.isInfix (h : ctx.Holds type c) :
    (Name.key c.qualifiedName).toList <:+: squeeze (ctx.baseName type).toList := by
  obtain ⟨-, name, hwithin, hsame⟩ := h
  have hkey : (Name.key name).toList <:+: squeeze name.toList := by
    have hmarks : dropScopeMarks (trimStart name.toList) <:+ name.toList :=
      (dropScopeMarks_suffix _).trans (List.dropWhile_suffix isBlank)
    rw [Name.key, String.toList_ofList]
    exact (hmarks.filter _).isInfix
  rw [← eq_of_beq hsame]
  exact hkey.trans (hwithin.isInfix.filter _)

/-- Where the base is written as a template over uses of types, it holds the classes that these
name. -/
theorem holds_iff_of_written {names : List String}
    (h : Name.Written (ctx.baseName type) names) : ctx.Holds type c ↔
      c ∈ ctx.table.classes ∧ ∃ name ∈ names, Name.same name c.qualifiedName = true := by
  refine and_congr_right fun _ => exists_congr fun name => ?_
  rw [h.within_iff]

/-- **What a type of the standard library lets across.**  The type is accepted unless it is a
pointer to a pointer, and it holds no class whose key does not stand in the text of its base.  Where
that is written as a template over uses of types, all classes it holds may cross the boundary
exactly if no use names a class of the table that may not. -/
theorem std_harmless_iff (h : ctx.classify type = .ok .std) :
    (ctx.checkType type = .ok .accepted ↔ type.pointerDepth ≤ 1) ∧
    (∀ c, ctx.Holds type c →
      (Name.key c.qualifiedName).toList <:+: squeeze (ctx.baseName type).toList) ∧
    ∀ names, Name.Written (ctx.baseName type) names →
      ((∀ c, ctx.Holds type c → ctx.IsHarmless c) ↔
        ∀ name ∈ names, ∀ c ∈ ctx.table.classes,
          Name.same name c.qualifiedName = true → ctx.IsHarmless c) := by
  refine ⟨checkType_eq_accepted_iff_of_std h, fun c => Holds.isInfix, fun names hwritten => ?_⟩
  simp only [holds_iff_of_written hwritten]
  constructor
  · intro hall name hname c hc hsame
    exact hall c ⟨hc, name, hname, hsame⟩
  · rintro hall c ⟨hc, name, hname, hsame⟩
    exact hall name hname c hc hsame

/-! ### Containers -/

def widgetRecord : ClassRecord where
  id := ⟨"_1"⟩
  name := "Widget"
  scope := ["lib"]

def secretRecord : ClassRecord where
  id := ⟨"_2"⟩
  name := "Secret"
  scope := ["lib"]

def handleRecord : ClassRecord where
  id := ⟨"_3"⟩
  name := "Handle"
  scope := ["ext"]

/-- A library with three classes, the first of which is loaded and the last of which is known. -/
def holderContext : Context :=
  (new ⟨[.ofClass widgetRecord, .ofClass secretRecord, .ofClass handleRecord], by decide⟩
    { knownClasses := [("ext::Handle", "handle.h")] }).register [⟨["lib"], "Widget"⟩]

/-- A template of the standard library. -/
def stdTemplate (short : String) (args : List TypeRef) : TypeRef :=
  { name := Name.writeTemplate short (args.map TypeRef.display), scope := ["std"] }

/-- A pointer to a class that is only read from. -/
def readPointer (scope : List String) (name : String) : TypeRef :=
  { name, scope, pointerDepth := 1, cv := { isConst := true } }

/-- A map of vectors of pointers to a class. -/
def pointerMap (scope : List String) (name : String) : TypeRef :=
  stdTemplate "map" [.named "int", stdTemplate "vector" [readPointer scope name]]

theorem qualifiedName_stdTemplate (short : String) (args : List TypeRef) :
    (stdTemplate short args).qualifiedName =
      Name.writeTemplate ("std::" ++ short) (args.map TypeRef.display) := by
  rw [← String.toList_inj, Name.toList_writeTemplate, TypeRef.qualifiedName, Name.join, stdTemplate,
    String.toList_intercalate]
  simp [Name.toList_writeTemplate, List.intercalate_cons_cons]

theorem written_vector {t : TypeRef} (ht : Name.IsTypeArgument t)
    (hplain : '<' ∉ t.qualifiedName.toList) :
    Name.Written (stdTemplate "vector" [t]).qualifiedName [t.qualifiedName] := by
  rw [qualifiedName_stdTemplate]
  exact .single (by decide) ht (.plain hplain)

theorem written_pointerMap {scope : List String} {name : String}
    (ht : Name.IsTypeArgument (readPointer scope name))
    (hplain : '<' ∉ (readPointer scope name).qualifiedName.toList)
    (hvector : Name.IsTypeArgument (stdTemplate "vector" [readPointer scope name])) :
    Name.Written (pointerMap scope name).qualifiedName ["int",
      (stdTemplate "vector" [readPointer scope name]).qualifiedName,
      (readPointer scope name).qualifiedName] := by
  rw [pointerMap, qualifiedName_stdTemplate]
  let inner : TypeRef → List String := fun t =>
    if t.scope = [] then [] else [(readPointer scope name).qualifiedName]
  refine @Name.Written.template "std::map"
    [.named "int", stdTemplate "vector" [readPointer scope name]] inner (by decide)
    (List.cons_ne_nil _ _) ?_ ?_
  · exact List.forall_mem_cons.2 ⟨by decide, List.forall_mem_singleton.2 hvector⟩
  · exact List.forall_mem_cons.2 ⟨.plain (by decide),
      List.forall_mem_singleton.2 (written_vector ht hplain)⟩

/-- Vectors of a known class in a map. -/
theorem std_harmless_iff_map :
    holderContext.classify (pointerMap ["ext"] "Handle") = .ok .std ∧
      holderContext.checkType (pointerMap ["ext"] "Handle") = .ok .accepted ∧
      (pointerMap ["ext"] "Handle").display = "std::map<int, std::vector<const ext::Handle*>>" ∧
      Name.Written (holderContext.baseName (pointerMap ["ext"] "Handle"))
        ["int", "std::vector<const ext::Handle*>", "ext::Handle"] ∧
      holderContext.Holds (pointerMap ["ext"] "Handle") handleRecord ∧
      ∀ c, holderContext.Holds (pointerMap ["ext"] "Handle") c → holderContext.IsHarmless c := by
  have hstd : holderContext.classify (pointerMap ["ext"] "Handle") = .ok .std :=
    toOption_eq_some.1 (by decide)
  have hwritten : Name.Written (holderContext.baseName (pointerMap ["ext"] "Handle"))
        ["int", "std::vector<const ext::Handle*>", "ext::Handle"] :=
    written_pointerMap (by decide) (by decide) (by decide)
  obtain ⟨haccepted, -, hall⟩ := std_harmless_iff hstd
  refine ⟨hstd, haccepted.2 (by decide), by decide, hwritten, ?_, (hall _ hwritten).2 (by decide)⟩
  exact ⟨by decide, "ext::Handle", hwritten.within_iff.2 (by decide), by decide⟩

/-- A vector of a class. -/
def classVector (scope : List String) (name : String) : TypeRef :=
  stdTemplate "vector" [{ name, scope }]

/-- **A container of a class of the library is accepted**: one of a class that is not loaded, and,
two brackets deep, one of pointers to a class that is. -/
theorem std_holds_library_class :
    ((classVector ["lib"] "Secret").display = "std::vector<lib::Secret>" ∧
      holderContext.classify (classVector ["lib"] "Secret") = .ok .std ∧
      holderContext.checkType (classVector ["lib"] "Secret") = .ok .accepted ∧
      holderContext.Holds (classVector ["lib"] "Secret") secretRecord ∧
      holderContext.classifyName secretRecord.qualifiedName = .unknown) ∧
    (pointerMap ["lib"] "Widget").display = "std::map<int, std::vector<const lib::Widget*>>" ∧
      holderContext.classify (pointerMap ["lib"] "Widget") = .ok .std ∧
      holderContext.checkType (pointerMap ["lib"] "Widget") = .ok .accepted ∧
      holderContext.Holds (pointerMap ["lib"] "Widget") widgetRecord ∧
      holderContext.classifyName widgetRecord.qualifiedName = .loaded := by
  have hvector : Name.Written (classVector ["lib"] "Secret").qualifiedName ["lib::Secret"] :=
    written_vector (by decide) (by decide)
  have hmap : Name.Written (pointerMap ["lib"] "Widget").qualifiedName
      ["int", "std::vector<const lib::Widget*>", "lib::Widget"] :=
    written_pointerMap (by decide) (by decide) (by decide)
  have hsecret : holderContext.Holds (classVector ["lib"] "Secret") secretRecord :=
    ⟨by decide, "lib::Secret", hvector.within_iff.2 (by decide), by decide⟩
  have hwidget : holderContext.Holds (pointerMap ["lib"] "Widget") widgetRecord :=
    ⟨by decide, "lib::Widget", hmap.within_iff.2 (by decide), by decide⟩
  refine ⟨⟨?_, toOption_eq_some.1 ?_, toOption_eq_some.1 ?_, hsecret, ?_⟩,
    ?_, toOption_eq_some.1 ?_, toOption_eq_some.1 ?_, hwidget, ?_⟩
  all_goals decide

end Context

end LoadBridge
