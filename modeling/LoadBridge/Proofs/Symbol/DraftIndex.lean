import LoadBridge.Proofs.Symbol.Draft
import LoadBridge.Proofs.Symbol.Index

/-!
# Symbols — Drafts with maps

A draft can be kept with a map from identifiers to positions, a map from the names of fundamental
types to their identifiers, and the number of the identifiers that were handed out (`DraftIndex`).
Each operation updates these four by itself, and fails where a position is out of range.  They stay
in step (`DraftIndex.InStep`): adding a record, and changing the one at the position of an
identifier, is what a draft does that has its records alone (`DraftIndex.Keeps`).  So no operation
fails, the answers are those of the draft, and what is built is the index of its table
(`DraftIndex.consistent_build`).
-/

namespace LoadBridge

/-- Records, with a map from identifiers, one from fundamental types, and a counter. -/
structure DraftIndex where
  records : List Record := []
  slots : List (RecordId × Nat) := []
  fundamentals : List (String × RecordId) := []
  /-- The number of the identifier that was handed out last. -/
  counter : Nat := 0

namespace DraftIndex

/-! ### Operations -/

/-- Hands out the next identifier and adds the record that `make` builds around it. -/
def add (index : DraftIndex) (make : RecordId → Record) : RecordId × DraftIndex :=
  let r := make (.numbered (index.counter + 1))
  (r.id,
    { index with
      records := index.records ++ [r]
      slots := (r.id, index.records.length) :: index.slots
      counter := index.counter + 1 })

/-- The record with this identifier. -/
def lookup? (index : DraftIndex) (id : RecordId) : Option (Option Record) :=
  fetch? index.records (index.slots.lookup id)

/-- Changes the record with this identifier, if there is one. -/
def change? (index : DraftIndex) (id : RecordId) (change : Record → Record) : Option DraftIndex :=
  match index.slots.lookup id with
  | none => some index
  | some slot => index.records[slot]?.map fun r =>
    { index with records := index.records.set slot (change r) }

/-- Changes the class with this identifier. -/
def changeClass? (index : DraftIndex) (id : RecordId) (change : ClassRecord → ClassRecord) :
    Option DraftIndex :=
  index.change? id fun
    | .ofClass c => .ofClass (change c)
    | r => r

/-- Changes the member with this identifier. -/
def changeMember? (index : DraftIndex) (id : RecordId) (change : MemberRecord → MemberRecord) :
    Option DraftIndex :=
  index.change? id fun
    | .ofMember m => .ofMember (change m)
    | r => r

/-- The fundamental type `name`, recorded at its first use. -/
def fundamental (index : DraftIndex) (name : String) : TypeRef × DraftIndex :=
  match index.fundamentals.lookup name with
  | some id => (.of id [] name, index)
  | none =>
    let added := index.add fun id => .ofFundamental { id, name }
    (.of added.1 [] name, { added.2 with fundamentals := (name, added.1) :: index.fundamentals })

/-- Adds an enumeration and answers its type. -/
def enumeration (index : DraftIndex) (qualified : String) : TypeRef × DraftIndex :=
  let n := QualifiedName.parse qualified
  let added := index.add fun id => .ofEnumeration { id, name := n.name, scope := n.scope }
  (.of added.1 n.scope n.name, added.2)

/-- The type of the class with this identifier. -/
def classType? (index : DraftIndex) (id : RecordId) : Option TypeRef :=
  (index.lookup? id).map fun
    | some (.ofClass c) => .of id c.scope c.name
    | _ => .named id.text

/-- Adds a class without members. -/
def addClass (index : DraftIndex) (qualified : String) : RecordId × DraftIndex :=
  let n := QualifiedName.parse qualified
  index.add fun id => .ofClass { id, name := n.name, scope := n.scope }

def addFunction (index : DraftIndex) (qualified : String) (returns : TypeRef)
    (args : List Argument) : RecordId × DraftIndex :=
  let n := QualifiedName.parse qualified
  index.add fun id =>
    .ofFunction { id, name := n.name, scope := n.scope, returns := some returns, args }

/-- Adds a public member and notes it in its class. -/
def addMember? (index : DraftIndex) (owner : RecordId) (kind : MemberKind) (name : String)
    (type : Option TypeRef) (args : List Argument) : Option (RecordId × DraftIndex) :=
  let added := index.add fun id => .ofMember { id, name, kind, context := owner, type, args }
  (added.2.changeClass? owner fun c => { c with members := c.members ++ [added.1] }).map
    (added.1, ·)

/-- Adds a constructor, which is named like its class. -/
def addConstructor? (index : DraftIndex) (owner : RecordId) (args : List Argument) :
    Option (RecordId × DraftIndex) := do
  let name := match ← index.lookup? owner with
    | some (.ofClass c) => c.shortName
    | _ => ""
  index.addMember? owner .constructor name none args

/-- Adds what a compiler declares by itself: default and copy constructor, assignment and
destructor. -/
def addImplicitMembers? (index : DraftIndex) (owner : RecordId) : Option DraftIndex := do
  let this ← index.classType? owner
  let other : Argument := { type := this.constant.reference }
  let a ← index.addConstructor? owner []
  let b ← a.2.addConstructor? owner [other]
  let c ← b.2.addMember? owner .operator "=" (some this.reference) [other]
  let e ← c.2.addMember? owner .destructor ("~" ++ this.name) none []
  [a.1, b.1, c.1, e.1].foldlM
    (fun index id => index.changeMember? id fun m => { m with isArtificial := true }) e.2

/-- An operation: its answer, and what becomes of the draft. -/
def perform? (index : DraftIndex) : Draft.Operation → Option (Draft.Answer × DraftIndex)
  | .fundamental name => some ((index.fundamental name).map .type id)
  | .enumeration qualified => some ((index.enumeration qualified).map .type id)
  | .class qualified => some ((index.addClass qualified).map .id id)
  | .classType id => (index.classType? id).map fun type => (.type type, index)
  | .function qualified returns args => some ((index.addFunction qualified returns args).map .id id)
  | .method owner name returns args =>
    (index.addMember? owner .method name (some returns) args).map (Prod.map .id id)
  | .operator owner symbol returns args =>
    (index.addMember? owner .operator symbol (some returns) args).map (Prod.map .id id)
  | .constructor owner args => (index.addConstructor? owner args).map (Prod.map .id id)
  | .field owner name type =>
    (index.addMember? owner .field name (some type) []).map (Prod.map .id id)
  | .implicitMembers owner => (index.addImplicitMembers? owner).map (.nothing, ·)
  | .parent id parent =>
    (index.changeClass? id fun c => { c with bases := c.bases ++ [parent] }).map (.nothing, ·)
  | .location id location =>
    (index.changeClass? id fun c => { c with location := some location }).map (.nothing, ·)
  | .incomplete id =>
    (index.changeClass? id fun c => { c with isIncomplete := true }).map (.nothing, ·)
  | .template id => (index.changeClass? id fun c => { c with isTemplate := true }).map (.nothing, ·)
  | .adjust id adjustment => (index.changeMember? id adjustment.apply).map (.nothing, ·)

/-- Operations one after the other, with their answers. -/
def performAll? (index : DraftIndex) :
    List Draft.Operation → Option (List Draft.Answer × DraftIndex)
  | [] => some ([], index)
  | op :: rest => do
    let first ← index.perform? op
    let more ← first.2.performAll? rest
    some (first.1 :: more.1, more.2)

/-- The finished index of records. -/
def build (index : DraftIndex) : Except DuplicateRecord SymbolIndex :=
  SymbolIndex.ofRecords index.records

/-! ### What stays in step -/

/-- Identifiers lead to records. -/
structure Located (index : DraftIndex) : Prop where
  counter : index.counter = index.records.length
  /-- The records have the identifiers that were handed out, in order. -/
  numbered : index.records.map Record.id = (List.range' 1 index.counter).map .numbered
  /-- An identifier leads to the position of its record. -/
  slots : Locates (fun id r => r.id == id) index.slots index.records

/-- The maps and the counter are those of the records. -/
structure InStep (index : DraftIndex) : Prop extends Located index where
  /-- A name leads to the record of the fundamental type. -/
  fundamentals : ∀ name id, index.fundamentals.lookup name = some id ↔
    .ofFundamental ⟨id, name⟩ ∈ index.records

/-- The index has the records of the draft, and is in step. -/
structure Keeps (d : Draft) (index : DraftIndex) : Prop where
  records : index.records = d.records
  inStep : index.InStep

/-- An operation on the index does not fail, and does what it does to a draft. -/
def Follows {α : Type} (outcome : α × Draft) (result : Option (α × DraftIndex)) : Prop :=
  ∃ next, result = some (outcome.1, next) ∧ Keeps outcome.2 next

variable {d : Draft} {index : DraftIndex}

theorem keeps_empty : Keeps {} {} where
  records := rfl
  inStep := ⟨⟨rfl, rfl, locates_nil⟩, fun _ _ => iff_of_false nofun List.not_mem_nil⟩

theorem Located.nodup (h : index.Located) : (index.records.map Record.id).Nodup := by
  rw [h.numbered]
  exact (List.nodup_range' 1).map RecordId.numbered_injective

theorem Keeps.freshId (h : Keeps d index) : .numbered (index.counter + 1) = d.freshId := by
  rw [Draft.freshId, ← h.records, ← h.inStep.counter]
  rfl

/-- The next identifier has no position. -/
theorem Located.slots_fresh (h : index.Located) :
    index.slots.lookup (.numbered (index.counter + 1)) = none := by
  rw [h.slots, List.findIdx?_eq_none_iff]
  intro r hr
  by_contra hid
  have hmem : r.id ∈ index.records.map Record.id := List.mem_map_of_mem hr
  rw [h.numbered, eq_of_beq (Bool.of_not_eq_false hid)] at hmem
  obtain ⟨n, hn, hsame⟩ := List.mem_map.1 hmem
  obtain rfl := RecordId.numbered_injective hsame
  have := (List.mem_range'_1.1 hn).2
  omega

/-- **No position is out of range where a record is looked up.** -/
theorem Keeps.lookup? (h : Keeps d index) (id : RecordId) :
    index.lookup? id = some (d.lookup id) := by
  rw [DraftIndex.lookup?, h.inStep.slots.fetch?, h.records]
  rfl

theorem Keeps.classType? (h : Keeps d index) (id : RecordId) :
    index.classType? id = some (d.classType id) := by
  rw [DraftIndex.classType?, h.lookup?]
  rfl

/-! ### Adding -/

/-- What is added takes the next identifier, and the next position. -/
theorem Located.add (h : index.Located) (make : RecordId → Record) (hid : ∀ id, (make id).id = id) :
    (index.add make).2.Located := by
  have hslots := h.slots.concat (a := make (.numbered (index.counter + 1))) _
    fun _ => Bool.beq_comm
  rw [orInsert, hid, h.slots_fresh] at hslots
  refine ⟨?_, ?_, ?_⟩
  · rw [DraftIndex.add, List.length_append, h.counter]
    rfl
  · rw [DraftIndex.add, List.map_append, h.numbered, List.range'_1_concat, List.map_append,
      List.map_singleton, List.map_singleton, hid, Nat.add_comm 1]
  · rw [DraftIndex.add, hid]
    exact hslots

theorem Keeps.records_add (h : Keeps d index) (make : RecordId → Record) :
    (index.add make).2.records = (d.add make).2.records := by
  rw [DraftIndex.add, h.records, h.freshId]
  rfl

/-- What is added is no fundamental type. -/
theorem Keeps.add (h : Keeps d index) (make : RecordId → Record) (hid : ∀ id, (make id).id = id)
    (hother : ∀ id x, make id ≠ .ofFundamental x) :
    Follows (d.add make) (some (index.add make)) := by
  refine ⟨_, congrArg some (Prod.ext ((hid _).trans h.freshId) rfl), h.records_add make,
    h.inStep.toLocated.add make hid, fun name id => ?_⟩
  rw [DraftIndex.add, List.mem_append, List.mem_singleton, or_iff_left (hother _ _).symm]
  exact h.inStep.fundamentals name id

/-- **A fundamental type is found in the map where it is found among the records.** -/
theorem Keeps.fundamental (h : Keeps d index) (name : String) :
    Follows (d.fundamental name) (some (index.fundamental name)) := by
  have hiff := h.inStep.fundamentals
  rw [DraftIndex.fundamental]
  rcases d.fundamental_cases name with ⟨id, hid, heq⟩ | ⟨hnew, heq⟩
  · rw [(hiff name id).2 (h.records ▸ hid), heq]
    exact ⟨index, rfl, h⟩
  have hnone : index.fundamentals.lookup name = none := by
    refine Option.eq_none_iff_forall_ne_some.2 fun id hid => hnew (Draft.mem_fundamentalNames.2 ?_)
    exact ⟨_, h.records ▸ (hiff name id).1 hid, Draft.isFundamental_iff.2 ⟨id, rfl⟩⟩
  let make : RecordId → Record := fun id => .ofFundamental { id, name }
  have hlocated := h.inStep.toLocated.add make fun _ => rfl
  rw [hnone, heq]
  refine ⟨_, congrArg some (Prod.ext (congrArg (TypeRef.of · [] name) h.freshId) rfl),
    h.records_add make, ⟨hlocated.counter, hlocated.numbered, hlocated.slots⟩, fun other id => ?_⟩
  rw [DraftIndex.add, List.lookup_cons, List.mem_append, List.mem_singleton, ← hiff]
  cases hother : other == name with
  | true =>
    obtain rfl := eq_of_beq hother
    simp [hnone, Record.id, eq_comm]
  | false => simp [ne_of_beq_false hother]

/-! ### Changing -/

/-- The record at the position of an identifier is the only one with it. -/
theorem set_findIdx? (edit : Record → Record) {records : List Record} {id : RecordId} {slot : Nat}
    (hnodup : (records.map Record.id).Nodup)
    (hslot : records.findIdx? (fun r => r.id == id) = some slot) : ∃ r, records[slot]? = some r ∧
      records.set slot (edit r) = records.map fun r => if r.id = id then edit r else r := by
  induction records generalizing slot with
  | nil => cases hslot
  | cons r rest ih =>
    obtain ⟨hr, hrest⟩ := List.nodup_cons.1 hnodup
    rw [List.findIdx?_cons] at hslot
    split at hslot
    · next hid =>
      obtain rfl := Option.some.inj hslot
      obtain rfl := eq_of_beq hid
      have hothers : (rest.map fun s => if s.id = r.id then edit s else s) = rest := by
        refine (List.map_congr_left fun s hs => if_neg fun hsame => hr ?_).trans (List.map_id _)
        exact hsame ▸ List.mem_map_of_mem hs
      exact ⟨r, rfl, by rw [List.set_cons_zero, List.map_cons, if_pos rfl, hothers]⟩
    · next hid =>
      obtain ⟨slot, hfirst, rfl⟩ := Option.map_eq_some_iff.1 hslot
      obtain ⟨s, hs, hset⟩ := ih hrest hfirst
      refine ⟨s, hs, ?_⟩
      rw [List.set_cons_succ, hset, List.map_cons, if_neg (by simpa using hid)]

/-- A change that leaves identifiers and fundamental types alone. -/
theorem InStep.map (h : index.InStep) {f : Record → Record} (hid : ∀ r, (f r).id = r.id)
    (hfundamental : ∀ r x, f r = .ofFundamental x ↔ r = .ofFundamental x) :
    InStep { index with records := index.records.map f } := by
  refine ⟨⟨?_, ?_, fun id => ?_⟩, fun name id => ?_⟩
  · rw [List.length_map, h.counter]
  · rw [List.map_map, ← h.numbered]
    exact List.map_congr_left fun r _ => hid r
  · rw [List.findIdx?_map, h.slots id]
    exact congrArg (List.findIdx? · _) (funext fun r => congrArg (· == id) (hid r).symm)
  · rw [List.mem_map, h.fundamentals]
    simp only [hfundamental, exists_eq_right]

/-- **No position is out of range where a record is changed**, and no other record is. -/
theorem Keeps.change? (h : Keeps d index) (id : RecordId) (edit : Record → Record)
    (hid : ∀ r, (edit r).id = r.id)
    (hfundamental : ∀ r x, edit r = .ofFundamental x ↔ r = .ofFundamental x) :
    ∃ next, index.change? id edit = some next ∧
      Keeps ⟨d.records.map fun r => if r.id = id then edit r else r⟩ next := by
  have hmap := h.inStep.map (f := fun r => if r.id = id then edit r else r)
    (fun r => by split <;> [exact hid r; rfl])
    (fun r x => by split <;> [exact hfundamental r x; rfl])
  rw [DraftIndex.change?]
  cases hslot : index.slots.lookup id with
  | none =>
    rw [h.inStep.slots id, List.findIdx?_eq_none_iff] at hslot
    have hsame : (d.records.map fun r => if r.id = id then edit r else r) = d.records := by
      refine (List.map_congr_left fun r hr => if_neg fun hr' => ?_).trans (List.map_id _)
      simpa [hr'] using hslot r (h.records ▸ hr)
    exact ⟨index, rfl, h.records.trans hsame.symm, h.inStep⟩
  | some slot =>
    rw [h.inStep.slots id] at hslot
    obtain ⟨r, hr, hset⟩ := set_findIdx? edit h.inStep.nodup hslot
    refine ⟨_, congrArg (Option.map _) hr, ?_⟩
    dsimp only
    rw [hset]
    exact ⟨congrArg (List.map _) h.records, hmap⟩

theorem Keeps.changeClass? (h : Keeps d index) (id : RecordId) (change : ClassRecord → ClassRecord)
    (hid : ∀ c, (change c).id = c.id) : ∃ next, index.changeClass? id change = some next ∧
      Keeps (d.changeClass id change) next := by
  obtain ⟨next, hnext, hkeeps⟩ := h.change? id
    (fun | .ofClass c => .ofClass (change c) | r => r)
    (fun r => by cases r <;> first | rfl | exact hid _)
    (fun r x => by cases r <;> simp)
  refine ⟨next, hnext, ?_⟩
  rw [Draft.changeClass_eq]
  convert hkeeps with r
  cases r with
  | ofClass c => exact apply_ite Record.ofClass ..
  | _ => exact (ite_self _).symm

theorem Keeps.changeMember? (h : Keeps d index) (id : RecordId)
    (change : MemberRecord → MemberRecord) (hid : ∀ m, (change m).id = m.id) :
    ∃ next, index.changeMember? id change = some next ∧ Keeps (d.changeMember id change) next := by
  obtain ⟨next, hnext, hkeeps⟩ := h.change? id
    (fun | .ofMember m => .ofMember (change m) | r => r)
    (fun r => by cases r <;> first | rfl | exact hid _)
    (fun r x => by cases r <;> simp)
  refine ⟨next, hnext, ?_⟩
  rw [Draft.changeMember_eq]
  convert hkeeps with r
  cases r with
  | ofMember m => exact apply_ite Record.ofMember ..
  | _ => exact (ite_self _).symm

/-! ### Members -/

theorem Keeps.addMember? (h : Keeps d index) (owner : RecordId) (kind : MemberKind) (name : String)
    (type : Option TypeRef) (args : List Argument) :
    Follows (d.addMember owner kind name type args)
      (index.addMember? owner kind name type args) := by
  obtain ⟨added, hadded, hkeeps⟩ :=
    h.add (fun id => .ofMember { id, name, kind, context := owner, type, args }) (fun _ => rfl)
      nofun
  obtain ⟨next, hnext, hkeeps⟩ := hkeeps.changeClass? owner
    (fun c => { c with members := c.members ++ [d.freshId] }) fun _ => rfl
  refine ⟨next, ?_, hkeeps⟩
  rw [DraftIndex.addMember?, Option.some.inj hadded]
  exact congrArg (Option.map _) hnext

theorem Keeps.addConstructor? (h : Keeps d index) (owner : RecordId) (args : List Argument) :
    Follows (d.addConstructor owner args) (index.addConstructor? owner args) := by
  rw [DraftIndex.addConstructor?, h.lookup?]
  exact h.addMember? ..

theorem Keeps.foldlM_changeMember? (change : MemberRecord → MemberRecord)
    (hid : ∀ m, (change m).id = m.id) (ids : List RecordId) (h : Keeps d index) :
    ∃ next, ids.foldlM (fun index id => index.changeMember? id change) index = some next ∧
      Keeps (ids.foldl (fun d id => d.changeMember id change) d) next := by
  induction ids generalizing d index with
  | nil => exact ⟨index, rfl, h⟩
  | cons id rest ih =>
    obtain ⟨next, hnext, h⟩ := h.changeMember? id change hid
    rw [List.foldlM_cons, hnext]
    exact ih h

theorem Keeps.addImplicitMembers? (h : Keeps d index) (owner : RecordId) :
    ∃ next, index.addImplicitMembers? owner = some next ∧
      Keeps (d.addImplicitMembers owner) next := by
  rw [DraftIndex.addImplicitMembers?, h.classType?]
  obtain ⟨a, ha, hkeeps⟩ := h.addConstructor? owner []
  obtain ⟨b, hb, hkeeps⟩ := hkeeps.addConstructor? owner
    [{ type := (d.classType owner).constant.reference }]
  obtain ⟨c, hc, hkeeps⟩ := hkeeps.addMember? owner .operator "="
    (some (d.classType owner).reference) [{ type := (d.classType owner).constant.reference }]
  obtain ⟨e, he, hkeeps⟩ := hkeeps.addMember? owner .destructor ("~" ++ (d.classType owner).name)
    none []
  simp only [Option.bind_eq_bind, Option.bind_some, ha, hb, hc, he]
  exact hkeeps.foldlM_changeMember? (fun m => { m with isArtificial := true }) (fun _ => rfl) _

/-! ### Runs -/

/-- An operation without an answer. -/
theorem Follows.silent {d' : Draft} {result : Option DraftIndex}
    (h : ∃ next, result = some next ∧ Keeps d' next) :
    Follows (Draft.Answer.nothing, d') (result.map (.nothing, ·)) := by
  obtain ⟨next, rfl, hkeeps⟩ := h
  exact ⟨next, rfl, hkeeps⟩

theorem Follows.answered {α : Type} {outcome : α × Draft} {result : Option (α × DraftIndex)}
    (h : Follows outcome result) (f : α → Draft.Answer) :
    Follows (f outcome.1, outcome.2) (result.map (Prod.map f id)) := by
  obtain ⟨next, rfl, hkeeps⟩ := h
  exact ⟨next, rfl, hkeeps⟩

/-- **An operation on the index follows that on the draft.** -/
theorem Keeps.perform? (h : Keeps d index) (op : Draft.Operation) :
    Follows (d.answer op, d.step op) (index.perform? op) := by
  cases op with
  | fundamental name => exact (h.fundamental name).answered .type
  | enumeration qualified =>
    let n := QualifiedName.parse qualified
    have hadd := h.add (fun id => .ofEnumeration { id, name := n.name, scope := n.scope })
      (fun _ => rfl) nofun
    exact hadd.answered fun id => .type (.of id n.scope n.name)
  | «class» qualified =>
    let n := QualifiedName.parse qualified
    have hadd := h.add (fun id => .ofClass { id, name := n.name, scope := n.scope })
      (fun _ => rfl) nofun
    exact hadd.answered .id
  | classType id =>
    exact ⟨index, congrArg (Option.map (Draft.Answer.type ·, index)) (h.classType? id), h⟩
  | function qualified returns args =>
    let n := QualifiedName.parse qualified
    have hadd := h.add (fun id =>
      .ofFunction { id, name := n.name, scope := n.scope, returns := some returns, args })
      (fun _ => rfl) nofun
    exact hadd.answered .id
  | method owner name returns args | operator owner name returns args | field owner name type =>
    exact (h.addMember? ..).answered .id
  | constructor owner args => exact (h.addConstructor? owner args).answered .id
  | implicitMembers owner => exact .silent (h.addImplicitMembers? owner)
  | parent id | location id | incomplete id | template id =>
    exact .silent (h.changeClass? id _ fun _ => rfl)
  | adjust id adjustment => exact .silent (h.changeMember? id _ fun _ => rfl)

/-- **No operation fails**, and all are answered as by the draft. -/
theorem Keeps.performAll? (h : Keeps d index) (ops : List Draft.Operation) :
    Follows (d.answers ops, ops.foldl Draft.step d) (index.performAll? ops) := by
  induction ops generalizing d index with
  | nil => exact ⟨index, rfl, h⟩
  | cons op rest ih =>
    obtain ⟨next, hnext, h⟩ := h.perform? op
    obtain ⟨last, hlast, h⟩ := ih h
    refine ⟨last, ?_, h⟩
    rw [DraftIndex.performAll?, hnext, Option.bind_eq_bind, Option.bind_some, hlast]
    rfl

/-- **Any operations give a consistent table.**  Whatever identifiers they take, none fails; the
maps and the counter are in step with the records; and what is built is the index of a table that
accounts for all operations and answers. -/
theorem consistent_build (ops : List Draft.Operation) : ∃ answers index symbols t,
    performAll? {} ops = some (answers, index) ∧ index.InStep ∧ index.build = .ok symbols ∧
      SymbolIndex.Indexes t symbols ∧ Draft.Accounts ops answers t := by
  obtain ⟨index, hindex, hkeeps⟩ := keeps_empty.performAll? ops
  obtain ⟨t, ht, haccounts⟩ := Draft.build_run ops
  have hagree := SymbolIndex.agree_ofRecords (Draft.run ops).records
  rw [show SymbolTable.ofRecords (Draft.run ops).records = .ok t from ht,
    show (Draft.run ops).records = index.records from hkeeps.records.symm] at hagree
  generalize hbuild : SymbolIndex.ofRecords index.records = built at hagree
  cases hagree with
  | ok hindexes => exact ⟨_, index, _, t, hindex, hkeeps.inStep, hbuild, hindexes, haccounts⟩

end DraftIndex

end LoadBridge
