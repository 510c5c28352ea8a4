import LoadBridge.Bridge.Verdict
import LoadBridge.Proofs.Symbol.Insertion

/-!
# Bridge — Classes behind other records

A function may have the name of a class, as `stat` does.  A name finds the record that was declared
first under it, whatever that is, and no class is found where it is none.  So what is declared
behind a class does not matter to it, and what is declared before it does: another record that
comes first under its name shadows it (`Shadowed`), and then it is said not to be there
(`class_found_iff`).
-/

namespace LoadBridge

/-- The first of the records that go by the name is no class. -/
def Shadowed (q : String) (records : List Record) : Prop :=
  ∃ r : Record, r.IsFirstNamed q records ∧ r.asClass? = none

namespace SymbolTable

variable {t : SymbolTable} {c d : ClassRecord} {before after : List Record}

theorem goesBy_class (c : ClassRecord) : (Record.ofClass c).GoesBy c.qualifiedName :=
  ⟨_, rfl, rfl⟩

/-- The name of a class finds the first record before it that goes by that name, or the class. -/
theorem lookupName_of_class (h : t.records = before ++ .ofClass c :: after) :
    t.lookupName c.qualifiedName =
      (before.find? (hasKey (Name.key c.qualifiedName))).or (some (.ofClass c)) := by
  rw [lookupName, h, List.find?_append, List.find?_cons_of_pos (hasKey_iff.2 (goesBy_class c))]

/-- **A class is found by its name where nothing shadows it.** -/
theorem classNamed?_eq_none_iff (h : t.records = before ++ .ofClass c :: after) :
    t.classNamed? c.qualifiedName = none ↔ Shadowed c.qualifiedName before := by
  rw [classNamed?, lookupName_of_class h]
  constructor
  · intro hnone
    cases hfirst : before.find? (hasKey (Name.key c.qualifiedName)) with
    | none =>
      rw [hfirst] at hnone
      cases hnone
    | some r =>
      rw [hfirst] at hnone
      exact ⟨r, find?_hasKey_eq_some_iff.1 hfirst, hnone⟩
  · rintro ⟨r, hfirst, hr⟩
    rw [find?_hasKey_eq_some_iff.2 hfirst]
    exact hr

/-- A class that comes first under its name is found. -/
theorem classNamed?_of_first (h : t.records = before ++ .ofClass c :: after)
    (hfirst : ∀ r ∈ before, ¬r.GoesBy c.qualifiedName) :
    t.classNamed? c.qualifiedName = some c := by
  have hnone : before.find? (hasKey (Name.key c.qualifiedName)) = none :=
    List.find?_eq_none.2 fun r hr hkey => hfirst r hr (hasKey_iff.1 hkey)
  rw [classNamed?, lookupName_of_class h, hnone]
  rfl

end SymbolTable

namespace Context

variable {ctx : Context} {c : ClassRecord} {before after : List Record}

theorem checkClass_eq_notFound_iff {q : String} : ctx.checkClass q = .rejected .notFound ↔
    ctx.isDitched q = false ∧ ctx.table.classNamed? q = none := by
  rw [checkClass]
  cases ctx.isDitched q with
  | true => simp
  | false =>
    cases ctx.table.classNamed? q with
    | none => simp
    | some c => cases hi : c.isIncomplete <;> cases ht : c.isTemplate <;> simp [hi, ht]

/-- **A class is found by its name where nothing shadows it.**  The name of a class finds a class of
that name exactly where the first record before it that goes by the name, if there is one, is a
class, whatever is declared behind it; it finds the class itself if there is none.  A class that is
not ditched is said not to be there exactly where it is shadowed. -/
theorem class_found_iff (h : ctx.table.records = before ++ .ofClass c :: after) :
    ((∃ d ∈ ctx.table.classes, ctx.table.classNamed? c.qualifiedName = some d ∧
        Name.key d.qualifiedName = Name.key c.qualifiedName) ↔
      ¬Shadowed c.qualifiedName before) ∧
    ((∀ r ∈ before, ¬r.GoesBy c.qualifiedName) →
      ctx.table.classNamed? c.qualifiedName = some c) ∧
    (ctx.checkClass c.qualifiedName = .rejected .notFound ↔
      ctx.isDitched c.qualifiedName = false ∧ Shadowed c.qualifiedName before) := by
  have hnone := SymbolTable.classNamed?_eq_none_iff h
  refine ⟨?_, SymbolTable.classNamed?_of_first h, ?_⟩
  · rw [← hnone]
    constructor
    · rintro ⟨d, -, hd, -⟩
      exact Option.ne_none_iff_exists'.2 ⟨d, hd⟩
    · intro hsome
      obtain ⟨d, hd⟩ := Option.ne_none_iff_exists'.1 hsome
      obtain ⟨hmem, hkey⟩ := SymbolTable.of_classNamed? hd
      exact ⟨d, hmem, hd, hkey⟩
  · rw [checkClass_eq_notFound_iff, hnone]

/-- A complete class with the name of a function. -/
def statRecord : ClassRecord := { id := ⟨"_1"⟩, name := "stat", isStruct := true }

/-- The function, which fills an object of the class. -/
def statFunction : FunctionRecord :=
  { id := ⟨"_2"⟩, name := "stat", returns := some (.named "int")
    args := [{ type := .of ⟨"_1"⟩ [] "stat" }] }

/-- The class before the function, and a namespace behind both. -/
def statTable : SymbolTable where
  records :=
    [.ofFundamental ⟨⟨"_4"⟩, "int"⟩, .ofClass statRecord, .ofFunction statFunction,
      .ofNamespace ⟨⟨"_3"⟩, " stat", []⟩]
  distinct := by decide

theorem class_found_iff_stat :
    (new statTable {}).table.records = [.ofFundamental ⟨⟨"_4"⟩, "int"⟩] ++ .ofClass statRecord ::
      [.ofFunction statFunction, .ofNamespace ⟨⟨"_3"⟩, " stat", []⟩] ∧
    statTable.classNamed? "stat" = some statRecord ∧
    (new statTable {}).checkClass "stat" ≠ .rejected .notFound := by
  have hsplit : (new statTable {}).table.records =
      [.ofFundamental ⟨⟨"_4"⟩, "int"⟩] ++ .ofClass statRecord ::
        [.ofFunction statFunction, .ofNamespace ⟨⟨"_3"⟩, " stat", []⟩] := rfl
  obtain ⟨hfound, hself, hverdict⟩ := class_found_iff hsplit
  have hstat := hself (by decide)
  refine ⟨hsplit, hstat, fun h => ?_⟩
  exact hfound.1 ⟨statRecord, by decide, hstat, rfl⟩ (hverdict.1 h).2

/-- The function before the class. -/
def shadowedTable : SymbolTable where
  records := [.ofFunction statFunction, .ofClass statRecord]
  distinct := by decide

/-- **A class is not found behind a function of its name**, though it is complete, no bare template
and not ditched. -/
theorem class_behind_function :
    SymbolTable.ofRecords [.ofFunction statFunction, .ofClass statRecord] = .ok shadowedTable ∧
    statRecord ∈ shadowedTable.classes ∧ statRecord.isIncomplete = false ∧
    statRecord.isTemplate = false ∧
    (new shadowedTable {}).isDitched statRecord.qualifiedName = false ∧
    shadowedTable.classNamed? statRecord.qualifiedName = none ∧
    (new shadowedTable {}).checkClass statRecord.qualifiedName = .rejected .notFound :=
  ⟨SymbolTable.ofRecords_eq_ok_iff.2 rfl, by decide, rfl, rfl, rfl, by decide, by decide⟩

end Context

end LoadBridge
