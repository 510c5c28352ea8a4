import Mathlib.Data.List.Nodup
import LoadBridge.Symbol.Table
import LoadBridge.Proofs.Outcome
import LoadBridge.Proofs.Pairing

/-!
# Symbols — What is found in a table

An identifier finds the one record that has it (`lookup_eq_some_iff`), and a name the first record
that goes by it (`lookupName_eq_some_iff`).  Where that is a class, the name finds the same class
under every spelling (`classNamed?_congr`), one of that name (`of_classNamed?`).  A front end may
also promise that no two classes have one name (`KeysDistinct`).
-/

namespace LoadBridge

/-- A record goes by every spelling of its name.  A member has none. -/
def Record.GoesBy (r : Record) (qualified : String) : Prop :=
  ∃ name, r.qualifiedName? = some name ∧ Name.key name = Name.key qualified

/-- All records but members go by a name. -/
theorem Record.exists_goesBy_iff {r : Record} : (∃ q, r.GoesBy q) ↔ r.kind ≠ .member := by
  cases r <;> simp [GoesBy, qualifiedName?, kind]

/-- `r` is the first of the records that go by the name. -/
def Record.IsFirstNamed (q : String) (records : List Record) (r : Record) : Prop :=
  ∃ before after, records = before ++ r :: after ∧ r.GoesBy q ∧ ∀ s ∈ before, ¬s.GoesBy q

namespace SymbolTable

variable {t : SymbolTable} {id : RecordId} {r : Record} {c d : ClassRecord} {m : MemberRecord}
  {f : FunctionRecord} {a b q : String}

/-- **An identifier finds the record that has it.** -/
theorem lookup_eq_some_iff : t.lookup id = some r ↔ r ∈ t.records ∧ r.id = id := by
  constructor
  · intro h
    exact ⟨List.mem_of_find?_eq_some h, by simpa using List.find?_some h⟩
  · rintro ⟨hr, rfl⟩
    obtain ⟨s, hs⟩ : ∃ s, t.lookup r.id = some s :=
      Option.isSome_iff_exists.1 (List.find?_isSome.2 ⟨r, hr, by simp⟩)
    have hid : s.id = r.id := by simpa using List.find?_some hs
    rw [hs, List.inj_on_of_nodup_map t.distinct (List.mem_of_find?_eq_some hs) hr hid]

theorem mem_classes : c ∈ t.classes ↔ .ofClass c ∈ t.records := by
  rw [classes, List.mem_filterMap]
  refine ⟨?_, fun h => ⟨.ofClass c, h, rfl⟩⟩
  rintro ⟨r, hr, hc⟩
  cases r <;> cases hc
  exact hr

theorem asClass?_eq_some_iff : r.asClass? = some c ↔ r = .ofClass c := by
  cases r <;> simp [Record.asClass?]

theorem class?_eq_some_iff_lookup : t.class? id = some c ↔ t.lookup id = some (.ofClass c) := by
  rw [class?, Option.bind_eq_some_iff]
  simp only [asClass?_eq_some_iff, exists_eq_right]

/-- An identifier finds the class that has it. -/
theorem class?_eq_some_iff : t.class? id = some c ↔ c ∈ t.classes ∧ c.id = id := by
  rw [class?_eq_some_iff_lookup, lookup_eq_some_iff, mem_classes, Record.id]

theorem class?_id (hc : c ∈ t.classes) : t.class? c.id = some c := class?_eq_some_iff.2 ⟨hc, rfl⟩

theorem eq_of_id_eq (hc : c ∈ t.classes) (hd : d ∈ t.classes) (h : c.id = d.id) : c = d :=
  Option.some.inj ((class?_id hc).symm.trans (h ▸ class?_id hd))

/-- Identifiers of classes find classes with these identifiers. -/
theorem map_id_filterMap_class? {ids : List RecordId}
    (h : ∀ id ∈ ids, id ∈ t.classes.map ClassRecord.id) :
    (ids.filterMap t.class?).map ClassRecord.id = ids := by
  induction ids with
  | nil => rfl
  | cons id rest ih =>
      obtain ⟨c, hc, rfl⟩ := List.mem_map.1 (h _ List.mem_cons_self)
      rw [List.filterMap_cons_some (class?_id hc), List.map_cons,
        ih fun id hid => h id (List.mem_cons_of_mem _ hid)]

theorem mem_records_of_mem_functions (h : f ∈ t.functions) : .ofFunction f ∈ t.records := by
  obtain ⟨r, hr, hf⟩ := List.mem_filterMap.1 h
  cases r <;> cases hf
  exact hr

theorem memberWith_eq_ok_iff : t.memberWith id = .ok m ↔ t.lookup id = some (.ofMember m) := by
  rw [memberWith]
  split
  · next hfound => rw [hfound, Option.some_inj, Record.ofMember.injEq, Except.ok.injEq]
  · next other hother hfound =>
    refine ⟨fun h => (nomatch h), fun h => ?_⟩
    exact absurd (Option.some.inj (hfound.symm.trans h)) (hother m)
  · next hfound => rw [hfound]; exact ⟨fun h => (nomatch h), fun h => (nomatch h)⟩

/-- The members of a class are records of the table. -/
theorem mem_records_of_membersOf {members : List MemberRecord} (h : t.membersOf c = .ok members)
    (hm : m ∈ members) : .ofMember m ∈ t.records := by
  obtain ⟨id, -, hid⟩ := exists_partner_left (mapM_eq_ok_iff.1 h) hm
  exact (lookup_eq_some_iff.1 (memberWith_eq_ok_iff.1 hid)).1

/-- The class lists the member. -/
def Declares (t : SymbolTable) (c : ClassRecord) (m : MemberRecord) : Prop :=
  ∃ id ∈ c.members, t.lookup id = some (.ofMember m)

/-- What a class lists are its members, where all of them can be read. -/
theorem declares_iff {members : List MemberRecord} (h : t.membersOf c = .ok members) :
    t.Declares c m ↔ m ∈ members := by
  have hpairs := mapM_eq_ok_iff.1 h
  constructor
  · rintro ⟨id, hid, hfound⟩
    obtain ⟨n, hn, hread⟩ := exists_partner hpairs hid
    have hsame : n = m := by
      rw [memberWith_eq_ok_iff, hfound] at hread
      exact (Record.ofMember.inj (Option.some.inj hread)).symm
    exact hsame ▸ hn
  · intro hm
    obtain ⟨id, hid, hread⟩ := exists_partner_left hpairs hm
    exact ⟨id, hid, memberWith_eq_ok_iff.1 hread⟩

theorem hasKey_iff : hasKey (Name.key q) r = true ↔ r.GoesBy q := by
  unfold hasKey Record.GoesBy
  cases r.qualifiedName? with
  | none => simp
  | some name => simp

instance (r : Record) (q : String) : Decidable (r.GoesBy q) := decidable_of_iff _ hasKey_iff

theorem find?_hasKey_eq_some_iff {records : List Record} :
    records.find? (hasKey (Name.key q)) = some r ↔ r.IsFirstNamed q records := by
  rw [List.find?_eq_some_iff_append, hasKey_iff]
  simp only [Bool.not_eq_true', ← Bool.not_eq_true, hasKey_iff]
  constructor
  · rintro ⟨hr, before, after, hrecords, hfirst⟩
    exact ⟨before, after, hrecords, hr, hfirst⟩
  · rintro ⟨before, after, hrecords, hr, hfirst⟩
    exact ⟨hr, before, after, hrecords, hfirst⟩

/-- **A name finds the first record that goes by it.** -/
theorem lookupName_eq_some_iff : t.lookupName q = some r ↔ r.IsFirstNamed q t.records :=
  find?_hasKey_eq_some_iff

theorem lookupName_eq_none_iff : t.lookupName q = none ↔ ∀ r ∈ t.records, ¬r.GoesBy q := by
  rw [lookupName, List.find?_eq_none]
  simp only [hasKey_iff]

/-- The class that a name finds is a class of that name. -/
theorem of_classNamed? (h : t.classNamed? a = some c) :
    c ∈ t.classes ∧ Name.key c.qualifiedName = Name.key a := by
  obtain ⟨r, hr, hc⟩ := Option.bind_eq_some_iff.1 h
  obtain rfl := asClass?_eq_some_iff.1 hc
  have hkey : hasKey (Name.key a) (.ofClass c) = true := List.find?_some hr
  exact ⟨mem_classes.2 (List.mem_of_find?_eq_some hr), eq_of_beq hkey⟩

/-- Spelling does not matter. -/
theorem classNamed?_congr (h : Name.key a = Name.key b) : t.classNamed? a = t.classNamed? b := by
  rw [classNamed?, classNamed?, lookupName, lookupName, h]

/-- No two classes have one name. -/
def KeysDistinct (t : SymbolTable) : Prop :=
  (t.classes.map fun c => Name.key c.qualifiedName).Nodup

theorem KeysDistinct.eq (h : t.KeysDistinct) (hc : c ∈ t.classes) (hd : d ∈ t.classes)
    (hkey : Name.key c.qualifiedName = Name.key d.qualifiedName) : c = d :=
  List.inj_on_of_nodup_map h hc hd hkey

end SymbolTable

end LoadBridge
