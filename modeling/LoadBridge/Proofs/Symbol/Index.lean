import LoadBridge.Proofs.Name.Slices
import LoadBridge.Proofs.Name.Table
import LoadBridge.Proofs.Symbol.Insertion

/-!
# Symbols — Tables with maps of positions

A table keeps its items in order and finds them through maps from keys to positions.  A position
that a map gives may be out of range, and then nothing can be taken (`fetch?`).  The maps of both
tables are built as their items come: records (`SymbolIndex`) and generated names (`NameIndex`).
What carries the proofs is that a map sends a key to the first position of an item with this key; so
each position is in range, and what is found is what a search through the items finds
(`fetch?_findIdx?`).
-/

namespace LoadBridge

/-! ### Maps of positions -/

section

variable {α β : Type}

/-- The item at a position, if there is a position.  Fails where there is no item at it. -/
def fetch? (items : List α) : Option Nat → Option (Option α)
  | none => some none
  | some slot => items[slot]?.map some

/-- **The position of the first item is in range**, and has the first item. -/
theorem fetch?_findIdx? (items : List α) (p : α → Bool) :
    fetch? items (items.findIdx? p) = some (items.find? p) := by
  induction items with
  | nil => rfl
  | cons a rest ih =>
    rw [List.findIdx?_cons, List.find?_cons]
    cases hp : p a with
    | true => rfl
    | false =>
      rw [← ih]
      cases rest.findIdx? p <;> rfl

theorem fetch?_map (f : α → β) (items : List α) (slot : Option Nat) :
    fetch? (items.map f) slot = (fetch? items slot).map (Option.map f) := by
  cases slot with
  | none => rfl
  | some slot =>
    rw [fetch?, fetch?, List.getElem?_map]
    cases items[slot]? <;> rfl

/-- The position of an item that was just put at the end. -/
theorem psub_length_concat (items : List α) (a : α) :
    (items ++ [a]).length.psub 1 = some items.length := by
  rw [List.length_append, List.length_singleton]
  exact Nat.psub_eq_sub (Nat.le_add_left _ _)

variable [BEq β]

/-- The entries with `slot` under `key`, unless `key` has an entry. -/
def orInsert (key : β) (slot : Nat) (entries : List (β × Nat)) : List (β × Nat) :=
  if (entries.lookup key).isSome then entries else (key, slot) :: entries

/-- The entries send each key to the first position of an item that has it. -/
def Locates (has : β → α → Bool) (entries : List (β × Nat)) (items : List α) : Prop :=
  ∀ key, entries.lookup key = items.findIdx? (has key)

variable {entries : List (β × Nat)} {items : List α} {has : β → α → Bool} {a : α}

theorem locates_nil : Locates has [] [] := fun _ => rfl

/-- What is found through the entries is found by a search. -/
theorem Locates.fetch? (h : Locates has entries items) (key : β) :
    fetch? items (entries.lookup key) = some (items.find? (has key)) := by
  rw [h key, fetch?_findIdx?]

/-- An item without a key comes last. -/
theorem Locates.concat_of_none (h : Locates has entries items) (ha : ∀ k, has k a = false) :
    Locates has entries (items ++ [a]) := by
  intro k
  rw [h k, List.findIdx?_append, List.findIdx?_singleton, ha k]
  simp

variable [LawfulBEq β]

theorem lookup_eq_find? (pairs : List (β × α)) (key : β) :
    pairs.lookup key = (pairs.find? fun pair => pair.1 == key).map (·.2) := by
  induction pairs with
  | nil => rfl
  | cons pair rest ih =>
    rw [List.lookup_cons, List.find?_cons, ih, Bool.beq_comm]
    cases pair.1 == key <;> rfl

theorem lookup_orInsert (key : β) (slot : Nat) (k : β) :
    (orInsert key slot entries).lookup k =
      (entries.lookup k).or (if k == key then some slot else none) := by
  rw [orInsert]
  cases hk : k == key with
  | true =>
    obtain rfl := eq_of_beq hk
    split
    · next h =>
      obtain ⟨found, h⟩ := Option.isSome_iff_exists.1 h
      rw [h, Option.some_or]
    · next h =>
      rw [Option.not_isSome_iff_eq_none.1 h, List.lookup_cons_self]
      rfl
  | false =>
    split
    · simp
    · rw [List.lookup_cons, hk]
      simp

/-- **An item with one key comes last**: it is first only where there was none. -/
theorem Locates.concat (h : Locates has entries items) (key : β)
    (ha : ∀ k, has k a = (k == key)) :
    Locates has (orInsert key items.length entries) (items ++ [a]) := by
  intro k
  rw [lookup_orInsert, h k, List.findIdx?_append, List.findIdx?_singleton, ha k]
  cases k == key <;> simp

end

/-- Folds agree where their steps do. -/
theorem Agree.foldlM {ε α σ τ : Type} {R : σ → τ → Prop} {step : σ → α → Except ε σ}
    {step' : τ → α → Except ε τ} (hstep : ∀ a s s', R s s' → Agree R (step s a) (step' s' a)) :
    ∀ (as : List α) {s : σ} {s' : τ}, R s s' → Agree R (as.foldlM step s) (as.foldlM step' s')
  | [], _, _, h => .ok h
  | a :: rest, s, s', h => by
    rw [List.foldlM_cons, List.foldlM_cons]
    have hagree := hstep a s s' h
    generalize step s a = x, step' s' a = y at hagree ⊢
    cases hagree with
    | error e => exact .error e
    | ok hnext => exact Agree.foldlM hstep rest hnext

/-! ### Records -/

/-- Records with a map from identifiers and one from the keys of names. -/
structure SymbolIndex where
  records : List Record := []
  byId : List (RecordId × Nat) := []
  byName : List (String × Nat) := []

namespace SymbolIndex

/-- Adds a record at the end, unless its identifier is taken.  Of several records with one name the
first keeps it. -/
def insert (index : SymbolIndex) (r : Record) : Except DuplicateRecord SymbolIndex :=
  if (index.byId.lookup r.id).isSome then .error ⟨r.id⟩
  else
    let slot := index.records.length
    .ok
      { records := index.records ++ [r]
        byId := (r.id, slot) :: index.byId
        byName :=
          match r.qualifiedName? with
          | some name => orInsert (Name.key name) slot index.byName
          | none => index.byName }

/-- The index of these records. -/
def ofRecords (records : List Record) : Except DuplicateRecord SymbolIndex :=
  records.foldlM insert {}

/-- The record with this identifier. -/
def lookup? (index : SymbolIndex) (id : RecordId) : Option (Option Record) :=
  fetch? index.records (index.byId.lookup id)

/-- The first record with this name. -/
def lookupName? (index : SymbolIndex) (qualified : String) : Option (Option Record) :=
  fetch? index.records (index.byName.lookup (Name.key qualified))

/-- The index has the records of the table, and its maps give first positions. -/
structure Indexes (t : SymbolTable) (index : SymbolIndex) : Prop where
  records : index.records = t.records
  byId : Locates (fun id r => r.id == id) index.byId index.records
  byName : Locates SymbolTable.hasKey index.byName index.records

variable {index : SymbolIndex} {t : SymbolTable}

theorem indexes_empty : Indexes .empty {} where
  records := rfl
  byId := locates_nil
  byName := locates_nil

/-- **An index takes a record where the table does**, and stays its index. -/
theorem Indexes.insert (h : Indexes t index) (r : Record) :
    Agree Indexes (t.insert r) (index.insert r) := by
  have htaken : (index.byId.lookup r.id).isSome = true ↔ t.Holds r := by
    rw [h.byId r.id, List.findIdx?_isSome, SymbolTable.Holds, h.records]
    simp [List.any_eq_true]
  by_cases hr : t.Holds r
  · rw [SymbolTable.insert_of_holds hr, SymbolIndex.insert, if_pos (htaken.2 hr)]
    exact .error _
  -- The identifier is free, so putting its slot in front hides none.
  have hfree := mt htaken.1 hr
  obtain ⟨u, hu, hrecords⟩ := SymbolTable.exists_insert hr
  rw [hu, SymbolIndex.insert, if_neg hfree]
  have hid := h.byId.concat (a := r) r.id fun _ => Bool.beq_comm
  rw [orInsert, if_neg hfree] at hid
  refine .ok ⟨?_, hid, ?_⟩
  · rw [hrecords, h.records]
  dsimp only
  split
  · next name hname =>
    refine h.byName.concat (Name.key name) fun key => ?_
    simp only [SymbolTable.hasKey, hname]
    exact Bool.beq_comm
  · next hname =>
    exact h.byName.concat_of_none fun key => by simp only [SymbolTable.hasKey, hname]

/-- **The index of records is that of their table**, or both find the same identifier twice. -/
theorem agree_ofRecords (records : List Record) :
    Agree Indexes (SymbolTable.ofRecords records) (ofRecords records) :=
  Agree.foldlM (fun r _ _ h => h.insert r) records indexes_empty

/-- **No position is out of range where a record is looked up by its identifier.** -/
theorem Indexes.lookup? (h : Indexes t index) (id : RecordId) :
    index.lookup? id = some (t.lookup id) := by
  rw [SymbolIndex.lookup?, h.byId.fetch?, h.records]
  rfl

/-- **No position is out of range where a record is looked up by its name.** -/
theorem Indexes.lookupName? (h : Indexes t index) (qualified : String) :
    index.lookupName? qualified = some (t.lookupName qualified) := by
  rw [SymbolIndex.lookupName?, h.byName.fetch?, h.records]
  rfl

end SymbolIndex

/-! ### Generated names -/

/-- Generated names with a map from the keys of the names of their classes. -/
structure NameIndex where
  affixes : NameAffixes
  /-- The namespace around all generated code, outermost first. -/
  outer : List String
  entries : List GeneratedNames := []
  slots : List (String × Nat) := []

namespace NameIndex

/-- An empty index for code in the namespace written `outer`. -/
def new (affixes : NameAffixes) (outer : String) : NameIndex :=
  { affixes, outer := Name.splitScope outer }

/-- The entry of a name, however it is spelled. -/
def get? (index : NameIndex) (qualified : String) : Option (Option GeneratedNames) :=
  fetch? index.entries (index.slots.lookup (Name.key qualified))

/-- Adds a class unless it has an entry, and takes its entry.  Fails where a name cannot be cut, or
where no entry is at the position. -/
def register? (index : NameIndex) (target : QualifiedName) :
    Option (GeneratedNames × NameIndex) :=
  let key := Name.key target.long
  match index.slots.lookup key with
  | some slot => index.entries[slot]?.map fun names => (names, index)
  | none => do
    let names ← GeneratedNames.derive? index.affixes target
    let entries := index.entries ++ [names]
    let slot ← entries.length.psub 1
    let entry ← entries[slot]?
    some (entry, { index with entries, slots := (key, slot) :: index.slots })

/-- Adds classes one after the other. -/
def registerAll? (index : NameIndex) (targets : List QualifiedName) : Option NameIndex :=
  targets.foldlM (fun index target => (index.register? target).map (·.2)) index

/-- The index has the entries of the table, and its map gives first positions. -/
structure Indexes (t : NameTable) (index : NameIndex) : Prop where
  affixes : index.affixes = t.affixes
  outer : index.outer = t.outer
  entries : index.entries = t.entries
  slots : Locates (fun key entry => entry.1 == key) index.slots t.keyed

variable {index : NameIndex} {t : NameTable}

theorem indexes_new (affixes : NameAffixes) (outer : String) :
    Indexes (.new affixes outer) (new affixes outer) := ⟨rfl, rfl, rfl, locates_nil⟩

/-- **No position is out of range where a name is looked up.** -/
theorem Indexes.get? (h : Indexes t index) (qualified : String) :
    index.get? qualified = some (t.get? qualified) := by
  rw [NameIndex.get?, h.entries, NameTable.entries, fetch?_map, h.slots.fetch?, NameTable.get?,
    lookup_eq_find?]
  rfl

/-- **Registering a class does not fail**, and gives what the table gives. -/
theorem Indexes.register? (h : Indexes t index) (target : QualifiedName) :
    ∃ next, index.register? target = some ((t.register target).1, next) ∧
      Indexes (t.register target).2 next := by
  have hfound := h.get? target.long
  rw [NameIndex.get?] at hfound
  rw [NameIndex.register?, NameTable.register]
  cases hslot : index.slots.lookup (Name.key target.long) with
  | some slot =>
    rw [hslot] at hfound
    -- The table has an entry, and the slot is its position: nothing is added.
    obtain ⟨names, hentry, hget⟩ := Option.map_eq_some_iff.1 hfound
    rw [← hget]
    refine ⟨index, ?_, h⟩
    dsimp only
    rw [hentry]
    rfl
  | none =>
    rw [hslot] at hfound
    have hget : t.get? target.long = none := (Option.some.inj hfound).symm
    have hslots := h.slots.concat
      (a := (Name.key target.long, GeneratedNames.derive t.affixes target))
      (Name.key target.long) fun _ => Bool.beq_comm
    have hlength : t.keyed.length = index.entries.length := by
      rw [h.entries, NameTable.entries, List.length_map]
    rw [orInsert, hslot, hlength] at hslots
    rw [hget]
    dsimp only
    rw [GeneratedNames.derive?_eq, Option.bind_eq_bind, Option.bind_some, psub_length_concat,
      Option.bind_eq_bind, Option.bind_some, List.getElem?_concat_length, h.affixes]
    refine ⟨_, rfl, rfl, h.outer, ?_, hslots⟩
    rw [h.entries, NameTable.entries, NameTable.entries, List.map_append]
    rfl

theorem Indexes.registerAll? (h : Indexes t index) (targets : List QualifiedName) :
    ∃ next, index.registerAll? targets = some next ∧ Indexes (t.registerAll targets) next := by
  induction targets generalizing t index with
  | nil => exact ⟨index, rfl, h⟩
  | cons target rest ih =>
    obtain ⟨next, hnext, h⟩ := h.register? target
    obtain ⟨last, hlast, h⟩ := ih h
    refine ⟨last, ?_, h⟩
    rw [NameIndex.registerAll?, List.foldlM_cons, hnext]
    exact hlast

end NameIndex

end LoadBridge
