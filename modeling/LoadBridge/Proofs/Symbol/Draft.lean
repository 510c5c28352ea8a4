import Mathlib.Data.List.Infix
import LoadBridge.Symbol.Draft
import LoadBridge.Proofs.Symbol.Insertion

/-!
# Symbols — What drafts become

A draft is changed by operations, each of which takes any identifier: one that no record has yet,
or that of a record of another kind.  An operation only lets a draft grow (`grows_step`).  What is
recorded keeps its outline and its place, new records come behind it under the next identifiers, a
fundamental type is recorded if it is new, and every class goes on listing the members that were
recorded for it.  So after any operations the draft becomes a table that is consistent
(`build_run`).
-/

namespace LoadBridge

/-- The `n`th identifier of a draft. -/
def RecordId.numbered (n : Nat) : RecordId := ⟨"_" ++ n.repr⟩

theorem RecordId.numbered_injective : Function.Injective RecordId.numbered := by
  intro m n h
  have hread : ∀ k, Nat.ofDigitChars 10 ((numbered k).text.toList.drop 1) 0 = k := by
    intro k
    simp [numbered, Nat.ofDigitChars_ten_toDigits]
  rw [← hread m, h, hread n]

namespace Record

/-- What stays of a record while others are added: all of a class but its members, parents, marks
and location, all of a member but its access and its flags. -/
def outline : Record → Record
  | .ofClass c => .ofClass { id := c.id, name := c.name, scope := c.scope, isStruct := c.isStruct }
  | .ofMember m =>
    .ofMember
      { id := m.id, name := m.name, kind := m.kind, context := m.context, type := m.type,
        args := m.args }
  | r => r

/-- The identifier of a member of the class `owner`. -/
def memberOf? (owner : RecordId) : Record → Option RecordId
  | .ofMember m => if m.context = owner then some m.id else none
  | _ => none

/-- The name of a fundamental type. -/
def fundamentalName? : Record → Option String
  | .ofFundamental f => some f.name
  | _ => none

/-- A class lists the members that are recorded for it in `rest`. -/
def Lists (rest : List Record) : Record → Prop
  | .ofClass c => c.members = rest.filterMap (memberOf? c.id)
  | _ => True

/-- A record with a change made to it where it is the class `id`. -/
def changeClass (id : RecordId) (change : ClassRecord → ClassRecord) : Record → Record
  | .ofClass c => .ofClass (if c.id = id then change c else c)
  | r => r

/-- A record with a change made to it where it is the member `id`. -/
def changeMember (id : RecordId) (change : MemberRecord → MemberRecord) : Record → Record
  | .ofMember m => .ofMember (if m.id = id then change m else m)
  | r => r

variable {r s : Record} {c : ClassRecord} {owner id : RecordId} {rest rest' : List Record}

@[simp] theorem id_outline (r : Record) : r.outline.id = r.id := by cases r <;> rfl

@[simp] theorem fundamentalName?_outline (r : Record) :
    r.outline.fundamentalName? = r.fundamentalName? := by cases r <;> rfl

theorem memberOf?_outline (r : Record) : r.outline.memberOf? owner = r.memberOf? owner := by
  cases r <;> rfl

theorem memberOf?_eq_some_iff :
    r.memberOf? owner = some id ↔ ∃ m, r = .ofMember m ∧ m.context = owner ∧ m.id = id := by
  cases r <;> simp [memberOf?]

theorem sublist_filterMap_memberOf? (owner : RecordId) (records : List Record) :
    (records.filterMap (memberOf? owner)).Sublist (records.map Record.id) := by
  induction records with
  | nil => exact .slnil
  | cons r rest ih =>
    rw [List.filterMap_cons]
    cases hr : r.memberOf? owner with
    | none => exact ih.cons _
    | some id =>
      obtain ⟨m, rfl, -, rfl⟩ := memberOf?_eq_some_iff.1 hr
      exact ih.cons_cons _

theorem outline_eq_ofClass (h : r.outline = (Record.ofClass c).outline) :
    ∃ c', r = .ofClass c' ∧ c'.id = c.id ∧ c'.scope = c.scope ∧ c'.name = c.name := by
  cases r with
  | ofClass c' =>
    have hparts := ClassRecord.mk.inj (Record.ofClass.inj h)
    exact ⟨c', rfl, hparts.1, hparts.2.2.1, hparts.2.1⟩
  | _ => cases h

theorem outline_eq_ofFundamental {f : FundamentalRecord} (h : r.outline = .ofFundamental f) :
    r = .ofFundamental f := by
  cases r <;> first | exact h | cases h

theorem outline_eq_ofEnumeration {e : EnumerationRecord} (h : r.outline = .ofEnumeration e) :
    r = .ofEnumeration e := by
  cases r <;> first | exact h | cases h

/-- `m` is noted in its class. -/
def noted (m : MemberRecord) : Record → Record :=
  changeClass m.context fun c => { c with members := c.members ++ [m.id] }

theorem memberOf?_eq_of_outline_eq (h : r.outline = s.outline) :
    r.memberOf? owner = s.memberOf? owner := by
  rw [← memberOf?_outline, h, memberOf?_outline]

theorem outline_changeClass {change : ClassRecord → ClassRecord}
    (h : ∀ c, (ofClass (change c)).outline = (ofClass c).outline) (r : Record) :
    (changeClass id change r).outline = r.outline := by
  cases r with
  | ofClass c => rw [changeClass]; split <;> [exact h c; rfl]
  | _ => rfl

theorem outline_changeMember {change : MemberRecord → MemberRecord}
    (h : ∀ m, (ofMember (change m)).outline = (ofMember m).outline) (r : Record) :
    (changeMember id change r).outline = r.outline := by
  cases r with
  | ofMember m => rw [changeMember]; split <;> [exact h m; rfl]
  | _ => rfl

theorem outline_noted (m : MemberRecord) (r : Record) : (noted m r).outline = r.outline := by
  rw [noted, outline_changeClass]
  exact fun _ => rfl

theorem Lists.congr
    (h : ∀ owner, rest.filterMap (memberOf? owner) = rest'.filterMap (memberOf? owner))
    (hr : r.Lists rest) : r.Lists rest' := by
  cases r with
  | ofClass c => exact Eq.trans hr (h c.id)
  | _ => trivial

/-- A change that leaves identifier and members alone leaves it so that members are listed. -/
theorem Lists.changeClass {change : ClassRecord → ClassRecord} (hid : ∀ c, (change c).id = c.id)
    (hmembers : ∀ c, (change c).members = c.members) (hr : r.Lists rest) :
    (changeClass id change r).Lists rest := by
  cases r with
  | ofClass c =>
    by_cases hc : c.id = id
    · simpa [Record.changeClass, hc, Lists, hid, hmembers] using hr
    · simpa [Record.changeClass, hc] using hr
  | _ => trivial

/-- A member that comes last and is noted in its class is listed there. -/
theorem Lists.noted {m : MemberRecord} (hr : r.Lists rest) :
    (noted m r).Lists (rest ++ [Record.ofMember m]) := by
  cases r with
  | ofClass c =>
    have hlast : c.members ++ (memberOf? c.id (.ofMember m)).toList =
        (rest ++ [Record.ofMember m]).filterMap (memberOf? c.id) := by
      rw [List.filterMap_append, hr, List.filterMap_cons, List.filterMap_nil]
      cases memberOf? c.id (.ofMember m) <;> rfl
    by_cases hc : c.id = m.context
    · simpa [Record.noted, Record.changeClass, Lists, memberOf?, hc] using hlast
    · simpa [Record.noted, Record.changeClass, Lists, memberOf?, hc, Ne.symm hc] using hlast
  | _ => trivial

end Record

open Record

/-- Every class lists the members that are recorded for it behind it, in their order. -/
def Listed : List Record → Prop
  | [] => True
  | r :: rest => r.Lists rest ∧ Listed rest

namespace Listed

variable {records before after : List Record} {s : Record} {c : ClassRecord} {m : MemberRecord}

theorem members_eq (h : Listed (before ++ .ofClass c :: after)) :
    c.members = after.filterMap (memberOf? c.id) := by
  induction before with
  | nil => exact h.1
  | cons _ before ih => exact ih h.2

/-- A record that is no member and lists none may come last. -/
theorem concat (h : Listed records) (hs : s.Lists []) (hno : ∀ owner, s.memberOf? owner = none) :
    Listed (records ++ [s]) := by
  induction records with
  | nil => exact ⟨hs, trivial⟩
  | cons r rest ih =>
    refine ⟨h.1.congr fun owner => ?_, ih h.2⟩
    change _ = (rest ++ [s]).filterMap _
    rw [List.filterMap_append, List.filterMap_cons_none (hno owner), List.filterMap_nil,
      List.append_nil]

/-- A change that leaves alone which members there are and what is listed. -/
theorem map {f : Record → Record} (hlists : ∀ r rest, r.Lists rest → (f r).Lists rest)
    (houtline : ∀ r, (f r).outline = r.outline) (h : Listed records) : Listed (records.map f) := by
  induction records with
  | nil => trivial
  | cons r rest ih =>
    refine ⟨(hlists r rest h.1).congr fun owner => ?_, ih h.2⟩
    rw [List.filterMap_map]
    exact List.filterMap_congr fun s _ => (memberOf?_eq_of_outline_eq (houtline s)).symm

/-- A member may come last if it is noted in its class. -/
theorem noted (h : Listed records) : Listed ((records ++ [Record.ofMember m]).map (noted m)) := by
  induction records with
  | nil => exact ⟨trivial, trivial⟩
  | cons r rest ih =>
    refine ⟨h.1.noted.congr fun owner => ?_, ih h.2⟩
    change _ = ((rest ++ [Record.ofMember m]).map (Record.noted m)).filterMap _
    rw [List.filterMap_map]
    exact List.filterMap_congr fun s _ => (memberOf?_eq_of_outline_eq (outline_noted m s)).symm

end Listed

namespace Draft

variable {d d' d'' : Draft} {names names' : List String} {id owner : RecordId} {r : Record}

/-! ### How a draft grows -/

/-- What stays of the records of a draft. -/
def outlines (d : Draft) : List Record := d.records.map outline

/-- The fundamental types that are recorded. -/
def fundamentalNames (d : Draft) : List String := d.records.filterMap fundamentalName?

theorem fundamentalNames_eq (d : Draft) :
    d.fundamentalNames = d.outlines.filterMap fundamentalName? := by
  rw [outlines, List.filterMap_map]
  exact List.filterMap_congr fun r _ => (fundamentalName?_outline r).symm

/-- The draft `d` goes on to `d'`: outlines stay, records with the next identifiers come behind
them, among them those of the fundamental types `names`, and members stay listed. -/
structure Grows (d : Draft) (names : List String) (d' : Draft) : Prop where
  outlines : ∃ more, d'.outlines = d.outlines ++ more ∧
    more.map Record.id = (List.range' (d.records.length + 1) more.length).map .numbered ∧
    more.filterMap fundamentalName? = names
  listed : Listed d.records → Listed d'.records

theorem changeClass_eq (d : Draft) (id : RecordId) (change : ClassRecord → ClassRecord) :
    d.changeClass id change = ⟨d.records.map (Record.changeClass id change)⟩ := by
  refine congrArg Draft.mk (List.map_congr_left fun r _ => ?_)
  cases r with
  | ofClass c => exact (apply_ite Record.ofClass ..).symm
  | _ => rfl

theorem changeMember_eq (d : Draft) (id : RecordId) (change : MemberRecord → MemberRecord) :
    d.changeMember id change = ⟨d.records.map (Record.changeMember id change)⟩ := by
  refine congrArg Draft.mk (List.map_congr_left fun r _ => ?_)
  cases r with
  | ofMember m => exact (apply_ite Record.ofMember ..).symm
  | _ => rfl

theorem mem_records_add (d : Draft) (make : RecordId → Record) :
    make d.freshId ∈ (d.add make).2.records := List.mem_concat_self

theorem exists_addMember (d : Draft) (owner : RecordId) (kind : MemberKind) (name : String)
    (type : Option TypeRef) (args : List Argument) :
    ∃ m : MemberRecord, m.id = d.freshId ∧
      (d.addMember owner kind name type args).2 =
        ⟨(d.records ++ [ofMember m]).map (noted m)⟩ :=
  ⟨{ id := d.freshId, name, kind, context := owner, type, args }, rfl, changeClass_eq ..⟩

namespace Grows

theorem refl (d : Draft) : d.Grows [] d := ⟨⟨[], by simp, rfl, rfl⟩, id⟩

theorem trans (h : d.Grows names d') (h' : d'.Grows names' d'') :
    d.Grows (names ++ names') d'' := by
  obtain ⟨more, houtlines, hids, hnames⟩ := h.outlines
  obtain ⟨more', houtlines', hids', hnames'⟩ := h'.outlines
  have hlength : d'.records.length = d.records.length + more.length := by
    simpa [Draft.outlines] using congrArg List.length houtlines
  refine ⟨⟨more ++ more', ?_, ?_, ?_⟩, h'.listed ∘ h.listed⟩
  · rw [houtlines', houtlines, List.append_assoc]
  · rw [List.map_append, hids, hids', List.length_append, ← List.map_append, hlength,
      Nat.add_right_comm, List.range'_append_1]
  · rw [List.filterMap_append, hnames, hnames']

theorem trans_nil (h : d.Grows [] d') (h' : d'.Grows [] d'') : d.Grows [] d'' := h.trans h'

theorem foldl {α : Type} {f : Draft → α → Draft} (h : ∀ (d : Draft) a, d.Grows [] (f d a))
    {as : List α} : d.Grows [] (as.foldl f d) := by
  induction as generalizing d with
  | nil => exact refl d
  | cons a as ih => exact (h d a).trans_nil ih

theorem fundamentalNames_eq (h : d.Grows names d') :
    d'.fundamentalNames = d.fundamentalNames ++ names := by
  obtain ⟨more, houtlines, -, hnames⟩ := h.outlines
  rw [Draft.fundamentalNames_eq, houtlines, List.filterMap_append, hnames,
    ← Draft.fundamentalNames_eq]

/-- A record stays, up to what is not in its outline. -/
theorem exists_mem (h : d.Grows names d') (hr : r ∈ d.records) :
    ∃ r' ∈ d'.records, r'.outline = r.outline := by
  obtain ⟨more, houtlines, -⟩ := h.outlines
  have hmem : r.outline ∈ d'.outlines :=
    houtlines ▸ List.mem_append_left _ (List.mem_map_of_mem hr)
  exact List.mem_map.1 hmem

theorem ids_isPrefix (h : d.Grows names d') :
    d.records.map Record.id <+: d'.records.map Record.id := by
  obtain ⟨more, houtlines, -⟩ := h.outlines
  have hids := congrArg (List.map Record.id) houtlines
  rw [List.map_append, Draft.outlines, Draft.outlines, List.map_map, List.map_map] at hids
  simp only [Function.comp_def, id_outline] at hids
  exact ⟨_, hids.symm⟩

/-- A record that is no member and lists none. -/
theorem add (make : RecordId → Record) (hid : (make d.freshId).id = d.freshId)
    (hlists : (make d.freshId).Lists [])
    (hno : ∀ owner, (make d.freshId).memberOf? owner = none) :
    d.Grows (make d.freshId).fundamentalName?.toList (d.add make).2 := by
  refine ⟨⟨[(make d.freshId).outline], List.map_append, ?_, ?_⟩, fun h => h.concat hlists hno⟩
  · rw [List.map_singleton, id_outline, hid]
    rfl
  · cases hname : (make d.freshId).fundamentalName? <;> simp [hname]

/-- A change of every record that leaves outlines alone, and what is listed. -/
theorem map {f : Record → Record} (houtline : ∀ r, (f r).outline = r.outline)
    (hlisted : Listed d.records → Listed (d.records.map f)) : d.Grows [] ⟨d.records.map f⟩ := by
  refine ⟨⟨[], ?_, rfl, rfl⟩, hlisted⟩
  rw [List.append_nil, Draft.outlines, List.map_map]
  exact List.map_congr_left fun r _ => houtline r

theorem changeClass {change : ClassRecord → ClassRecord}
    (houtline : ∀ c, (ofClass (change c)).outline = (ofClass c).outline)
    (hmembers : ∀ c, (change c).members = c.members) : d.Grows [] (d.changeClass id change) := by
  rw [changeClass_eq]
  have hid : ∀ c, (change c).id = c.id := fun c => congrArg Record.id (houtline c)
  exact .map (outline_changeClass houtline)
    (Listed.map (fun _ _ => Lists.changeClass hid hmembers) (outline_changeClass houtline))

theorem changeMember {change : MemberRecord → MemberRecord}
    (houtline : ∀ m, (ofMember (change m)).outline = (ofMember m).outline) :
    d.Grows [] (d.changeMember id change) := by
  rw [changeMember_eq]
  refine .map (outline_changeMember houtline)
    (Listed.map (fun r rest hr => ?_) (outline_changeMember houtline))
  cases r with
  | ofClass c => exact hr
  | _ => trivial

/-- A member that is noted in its class. -/
theorem addMember (d : Draft) (owner : RecordId) (kind : MemberKind) (name : String)
    (type : Option TypeRef) (args : List Argument) :
    d.Grows [] (d.addMember owner kind name type args).2 := by
  obtain ⟨m, hid, hadd⟩ := exists_addMember d owner kind name type args
  rw [hadd]
  refine ⟨⟨[(ofMember m).outline], ?_, ?_, rfl⟩, Listed.noted⟩
  · rw [Draft.outlines, List.map_map]
    refine Eq.trans (List.map_congr_left fun r _ => outline_noted m r) List.map_append
  · exact congrArg (fun id => [id]) hid

end Grows

/-! ### Operations -/

/-- A new access and new flags for a member, those that are given. -/
structure Adjustment where
  access : Option Access := none
  isConst : Option Bool := none
  isStatic : Option Bool := none
  isVirtual : Option Bool := none
  isPureVirtual : Option Bool := none
  isArtificial : Option Bool := none

/-- The member with what is given in place of its own. -/
def Adjustment.apply (a : Adjustment) (m : MemberRecord) : MemberRecord :=
  { m with
    access := a.access.getD m.access
    isConst := a.isConst.getD m.isConst
    isStatic := a.isStatic.getD m.isStatic
    isVirtual := a.isVirtual.getD m.isVirtual
    isPureVirtual := a.isPureVirtual.getD m.isPureVirtual
    isArtificial := a.isArtificial.getD m.isArtificial }

/-- What may be done to a draft. -/
inductive Operation where
  | fundamental (name : String)
  | enumeration (qualified : String)
  | «class» (qualified : String)
  | classType (id : RecordId)
  | function (qualified : String) (returns : TypeRef) (args : List Argument)
  | method (owner : RecordId) (name : String) (returns : TypeRef) (args : List Argument)
  | operator (owner : RecordId) (symbol : String) (returns : TypeRef) (args : List Argument)
  | constructor (owner : RecordId) (args : List Argument)
  | field (owner : RecordId) (name : String) (type : TypeRef)
  | implicitMembers (owner : RecordId)
  | parent (id : RecordId) (parent : ParentRecord)
  | location (id : RecordId) (location : SourceLocation)
  | incomplete (id : RecordId)
  | template (id : RecordId)
  | adjust (id : RecordId) (adjustment : Adjustment)

/-- The draft after an operation. -/
def step (d : Draft) : Operation → Draft
  | .fundamental name => (d.fundamental name).2
  | .enumeration qualified => (d.enumeration qualified).2
  | .class qualified => (d.addClass qualified).2
  | .classType _ => d
  | .function qualified returns args => (d.addFunction qualified returns args).2
  | .method owner name returns args => (d.addMethod owner name returns args).2
  | .operator owner symbol returns args => (d.addOperator owner symbol returns args).2
  | .constructor owner args => (d.addConstructor owner args).2
  | .field owner name type => (d.addField owner name type).2
  | .implicitMembers owner => d.addImplicitMembers owner
  | .parent id parent => d.addParent id parent
  | .location id location => d.setLocation id location
  | .incomplete id => d.markIncomplete id
  | .template id => d.markTemplate id
  | .adjust id adjustment => d.changeMember id adjustment.apply

/-- The draft after operations, from the empty one on. -/
def run (ops : List Operation) : Draft := ops.foldl step {}

/-- What an operation answers: nothing, the identifier of what it adds, or a type. -/
inductive Answer where
  | nothing
  | id (id : RecordId)
  | type (type : TypeRef)

def Answer.id? : Answer → Option RecordId
  | .id id => some id
  | _ => none

/-- The answer to an operation. -/
def answer (d : Draft) : Operation → Answer
  | .fundamental name => .type (d.fundamental name).1
  | .enumeration qualified => .type (d.enumeration qualified).1
  | .class qualified => .id (d.addClass qualified).1
  | .classType id => .type (d.classType id)
  | .function qualified returns args => .id (d.addFunction qualified returns args).1
  | .method owner name returns args => .id (d.addMethod owner name returns args).1
  | .operator owner symbol returns args => .id (d.addOperator owner symbol returns args).1
  | .constructor owner args => .id (d.addConstructor owner args).1
  | .field owner name type => .id (d.addField owner name type).1
  | .implicitMembers _ | .parent .. | .location .. | .incomplete _ | .template _ | .adjust .. =>
    .nothing

/-- The answers to operations, from the draft `d` on. -/
def answers (d : Draft) : List Operation → List Answer
  | [] => []
  | op :: rest => d.answer op :: (d.step op).answers rest

/-- The fundamental type that an operation asks for. -/
def Operation.fundamental? : Operation → Option String
  | .fundamental name => some name
  | _ => none

/-- The fundamental types that an operation records: the one it asks for, if that is new. -/
def newNames (d : Draft) (op : Operation) : List String :=
  op.fundamental?.toList.removeAll d.fundamentalNames

theorem isFundamental_iff {name : String} :
    isFundamental name r = true ↔ ∃ id, r = .ofFundamental ⟨id, name⟩ := by
  constructor
  · intro h
    cases r with
    | ofFundamental f => exact ⟨f.id, by rw [← eq_of_beq h]⟩
    | _ => cases h
  · rintro ⟨id, rfl⟩
    exact beq_self_eq_true name

theorem mem_fundamentalNames {name : String} :
    name ∈ d.fundamentalNames ↔ ∃ r ∈ d.records, isFundamental name r = true := by
  rw [fundamentalNames, List.mem_filterMap]
  refine exists_congr fun r => and_congr_right fun _ => ?_
  cases r <;> simp [fundamentalName?, isFundamental]

/-- A fundamental type is found, or recorded. -/
theorem fundamental_cases (d : Draft) (name : String) :
    (∃ id, .ofFundamental ⟨id, name⟩ ∈ d.records ∧ d.fundamental name = (.of id [] name, d)) ∨
    name ∉ d.fundamentalNames ∧
      d.fundamental name =
        (.of d.freshId [] name, (d.add fun id => .ofFundamental { id, name }).2) := by
  rw [fundamental]
  split
  · next r hfound =>
    obtain ⟨id, rfl⟩ := isFundamental_iff.1 (List.find?_some hfound)
    exact .inl ⟨id, List.mem_of_find?_eq_some hfound, rfl⟩
  · next hnone =>
    refine .inr ⟨fun hname => ?_, rfl⟩
    obtain ⟨r, hr, his⟩ := mem_fundamentalNames.1 hname
    exact List.find?_eq_none.1 hnone r hr his

theorem Grows.fundamental (d : Draft) (name : String) :
    d.Grows (d.newNames (.fundamental name)) (d.fundamental name).2 := by
  rcases fundamental_cases d name with ⟨id, hid, heq⟩ | ⟨hname, heq⟩
  · have hold : name ∈ d.fundamentalNames :=
      mem_fundamentalNames.2 ⟨_, hid, isFundamental_iff.2 ⟨id, rfl⟩⟩
    have hnew : d.newNames (.fundamental name) = [] := by
      simp [newNames, Operation.fundamental?, List.removeAll, hold]
    rw [hnew, heq]
    exact .refl d
  · have hnew : d.newNames (.fundamental name) = [name] := by
      simp [newNames, Operation.fundamental?, List.removeAll, hname]
    rw [hnew, heq]
    exact .add (fun id => .ofFundamental { id, name }) rfl trivial fun _ => rfl

theorem Grows.addImplicitMembers (d : Draft) (owner : RecordId) :
    d.Grows [] (d.addImplicitMembers owner) := by
  have artificial : ∀ (d : Draft) id,
      d.Grows [] (d.changeMember id fun m => { m with isArtificial := true }) :=
    fun _ _ => .changeMember fun _ => rfl
  refine .trans_nil ?_ (.foldl artificial)
  exact .trans_nil (.trans_nil (.trans_nil (addMember ..) (addMember ..)) (addMember ..))
    (addMember ..)

/-- **An operation lets a draft grow.** -/
theorem grows_step (d : Draft) (op : Operation) : d.Grows (d.newNames op) (d.step op) := by
  cases op with
  | fundamental name => exact .fundamental d name
  | enumeration qualified =>
    exact .add (fun id => .ofEnumeration { id, name := _, scope := _ }) rfl trivial fun _ => rfl
  | «class» qualified =>
    exact .add (fun id => .ofClass { id, name := _, scope := _ }) rfl rfl fun _ => rfl
  | classType id => exact .refl d
  | function qualified returns args =>
    exact .add (fun id => .ofFunction { id, name := _, scope := _, returns := some returns, args })
      rfl trivial fun _ => rfl
  | method owner name returns args | operator owner name returns args => exact .addMember ..
  | constructor owner args | field owner name type => exact .addMember ..
  | implicitMembers owner => exact .addImplicitMembers d owner
  | parent id parent => exact .changeClass (fun _ => rfl) fun _ => rfl
  | location id location => exact .changeClass (fun _ => rfl) fun _ => rfl
  | incomplete id | template id => exact .changeClass (fun _ => rfl) fun _ => rfl
  | adjust id adjustment => exact .changeMember fun _ => rfl

/-- Operations let a draft grow. -/
theorem exists_grows_foldl (d : Draft) (ops : List Operation) :
    ∃ names, d.Grows names (ops.foldl step d) := by
  induction ops generalizing d with
  | nil => exact ⟨[], .refl d⟩
  | cons op ops ih =>
    obtain ⟨names, h⟩ := ih (d.step op)
    exact ⟨_, (grows_step d op).trans h⟩

theorem run_append (first rest : List Operation) :
    run (first ++ rest) = rest.foldl step (run first) := List.foldl_append

/-- **A fundamental type is recorded when it is first asked for**, and only then. -/
theorem fundamentalNames_run (ops : List Operation) :
    (run ops).fundamentalNames = (ops.filterMap Operation.fundamental?).eraseDups := by
  induction ops using List.reverseRecOn with
  | nil => rfl
  | append_singleton ops op ih =>
    rw [run_append, List.foldl_cons, List.foldl_nil, (grows_step (run ops) op).fundamentalNames_eq,
      newNames, ih, List.filterMap_append, List.eraseDups_append, List.filterMap_cons]
    congr 1
    cases op.fundamental? with
    | none => rfl
    | some name =>
      change [name].filter _ = ([name].filter _).eraseDups
      by_cases hname : name ∈ ops.filterMap Operation.fundamental? <;>
        simp only [List.elem_eq_mem, List.mem_eraseDups, List.filter, hname, decide_true,
          decide_false, Bool.not_true, Bool.not_false] <;> rfl

/-- The records have the identifiers `_1`, `_2`, … in order. -/
theorem ids_run (ops : List Operation) :
    (run ops).records.map Record.id = (List.range' 1 (run ops).records.length).map .numbered := by
  obtain ⟨names, h⟩ := exists_grows_foldl {} ops
  obtain ⟨more, houtlines, hids, -⟩ := h.outlines
  have hall : (run ops).records.map outline = more := houtlines
  have hlength : (run ops).records.length = more.length := by rw [← hall, List.length_map]
  calc (run ops).records.map Record.id
      = ((run ops).records.map outline).map Record.id := by
        rw [List.map_map]
        exact List.map_congr_left fun r _ => (id_outline r).symm
    _ = (List.range' 1 more.length).map .numbered := by rw [hall]; exact hids
    _ = _ := by rw [hlength]

theorem nodup_ids_run (ops : List Operation) : ((run ops).records.map Record.id).Nodup := by
  rw [ids_run]
  exact (List.nodup_range' 1).map RecordId.numbered_injective

theorem listed_run (ops : List Operation) : Listed (run ops).records := by
  obtain ⟨names, h⟩ := exists_grows_foldl {} ops
  exact h.listed trivial

/-! ### Answers -/

theorem getElem?_answers (d : Draft) (ops : List Operation) (i : Nat) :
    (d.answers ops)[i]? = ops[i]?.map ((ops.take i).foldl step d).answer := by
  induction ops generalizing d i with
  | nil => rfl
  | cons op rest ih =>
    cases i with
    | zero => rfl
    | succ i => exact ih (d.step op) i

theorem length_answers (d : Draft) (ops : List Operation) :
    (d.answers ops).length = ops.length := by
  induction ops generalizing d with
  | nil => rfl
  | cons op rest ih => exact congrArg (· + 1) (ih (d.step op))

/-- The identifier that is answered is that of the record that is added. -/
theorem ids_step_of_answer {op : Operation} (h : (d.answer op).id? = some id) :
    (d.step op).records.map Record.id = d.records.map Record.id ++ [id] := by
  have hadd (make : RecordId → Record) (hid : (make d.freshId).id = d.freshId) :
      (d.add make).2.records.map Record.id = d.records.map Record.id ++ [d.freshId] := by
    simp [add, hid]
  have hmember (owner : RecordId) (kind : MemberKind) (name : String) (type : Option TypeRef)
      (args : List Argument) : (d.addMember owner kind name type args).2.records.map Record.id =
        d.records.map Record.id ++ [d.freshId] := by
    obtain ⟨m, hid, hnoted⟩ := exists_addMember d owner kind name type args
    have houtline : (Record.id ∘ noted m) = Record.id := by
      funext r
      rw [Function.comp_apply, ← id_outline, outline_noted, id_outline]
    rw [hnoted, List.map_map, houtline, List.map_append, ← hid]
    rfl
  cases op with
  | «class» | function =>
    obtain rfl := Option.some.inj h
    exact hadd _ rfl
  | method | operator | constructor | field =>
    obtain rfl := Option.some.inj h
    exact hmember ..
  | _ => cases h

/-- Identifiers are answered in the order in which their records are added. -/
theorem exists_ids_foldl (d : Draft) (ops : List Operation) : ∃ more,
    (ops.foldl step d).records.map Record.id = d.records.map Record.id ++ more ∧
      ((d.answers ops).filterMap Answer.id?).Sublist more := by
  induction ops generalizing d with
  | nil => exact ⟨[], (List.append_nil _).symm, .slnil⟩
  | cons op rest ih =>
    obtain ⟨later, hlater, hsublist⟩ := ih (d.step op)
    rw [answers, List.filterMap_cons, List.foldl_cons, hlater]
    cases hid : (d.answer op).id? with
    | none =>
      obtain ⟨more, hmore⟩ := (grows_step d op).ids_isPrefix
      refine ⟨more ++ later, ?_, hsublist.trans (List.sublist_append_right ..)⟩
      rw [← hmore, List.append_assoc]
    | some id =>
      refine ⟨id :: later, ?_, hsublist.cons_cons id⟩
      rw [ids_step_of_answer hid, List.append_assoc]
      rfl

/-! ### Finished tables -/

/-- A table in which everything that the operations recorded is found, as they left it. -/
structure Accounts (ops : List Operation) (answers : List Answer) (t : SymbolTable) : Prop where
  /-- The records have the identifiers `_1`, `_2`, … in order. -/
  numbered : t.records.map Record.id = (List.range' 1 t.records.length).map .numbered
  answered : answers.length = ops.length
  /-- Identifiers are answered in the order of the records. -/
  ordered : (answers.filterMap Answer.id?).Sublist (t.records.map Record.id)
  /-- A class lists the members that were added for it once it was there. -/
  listed : ∀ before c after, t.records = before ++ .ofClass c :: after →
    c.members = after.filterMap (memberOf? c.id)
  /-- What a class lists are members, and of this class. -/
  members : ∀ c ∈ t.classes, ∀ id ∈ c.members, ∃ m, t.memberWith id = .ok m ∧ m.context = c.id
  /-- No member is listed twice, and those added first come first. -/
  distinct : ∀ c ∈ t.classes, c.members.Nodup ∧ c.members.Sublist (t.records.map Record.id)
  /-- There is one record for each fundamental type that was asked for. -/
  fundamentals : t.records.filterMap fundamentalName? =
    (ops.filterMap Operation.fundamental?).eraseDups
  /-- The type that is answered for a fundamental name has the record of that name. -/
  fundamental : ∀ (i : Nat) name, ops[i]? = some (.fundamental name) →
    ∃ id, answers[i]? = some (.type (.of id [] name)) ∧
      t.lookup id = some (.ofFundamental { id, name })
  /-- The type that is answered for an enumeration has its record. -/
  enumeration : ∀ (i : Nat) qualified, ops[i]? = some (.enumeration qualified) →
    let n := QualifiedName.parse qualified
    ∃ id, answers[i]? = some (.type (.of id n.scope n.name)) ∧
      t.lookup id = some (.ofEnumeration { id, name := n.name, scope := n.scope })
  /-- A class that is added is found under the identifier that is answered. -/
  «class» : ∀ (i : Nat) qualified, ops[i]? = some (.class qualified) →
    let n := QualifiedName.parse qualified
    ∃ c, answers[i]? = some (.id c.id) ∧ t.lookup c.id = some (.ofClass c) ∧
      c.scope = n.scope ∧ c.name = n.name
  /-- The type that is answered for a class that was added before has the record of that class. -/
  classType : ∀ (i j : Nat) qualified id, j < i → ops[j]? = some (.class qualified) →
    answers[j]? = some (.id id) → ops[i]? = some (.classType id) →
    ∃ c, answers[i]? = some (.type (.of id c.scope c.name)) ∧ t.lookup id = some (.ofClass c)

section

variable {ops rest : List Operation} {t : SymbolTable} {c : ClassRecord} {name : String} {i j : Nat}

/-- A class of the finished table lists what was recorded for it behind it. -/
theorem members_of_mem_classes (ht : t.records = (run ops).records) (hc : c ∈ t.classes) :
    ∃ before after, t.records = before ++ .ofClass c :: after ∧
      c.members = after.filterMap (memberOf? c.id) := by
  obtain ⟨before, after, hsplit⟩ := List.append_of_mem (SymbolTable.mem_classes.1 hc)
  exact ⟨before, after, hsplit, (hsplit ▸ ht ▸ listed_run ops : Listed _).members_eq⟩

theorem memberWith_of_mem_members (ht : t.records = (run ops).records) (hc : c ∈ t.classes)
    (hid : id ∈ c.members) : ∃ m, t.memberWith id = .ok m ∧ m.context = c.id := by
  obtain ⟨before, after, hsplit, hmembers⟩ := members_of_mem_classes ht hc
  obtain ⟨r, hr, hmember⟩ := List.mem_filterMap.1 (hmembers ▸ hid)
  obtain ⟨m, rfl, hcontext, rfl⟩ := memberOf?_eq_some_iff.1 hmember
  have hmem : .ofMember m ∈ t.records :=
    hsplit ▸ List.mem_append_right _ (List.mem_cons_of_mem _ hr)
  exact ⟨m, SymbolTable.memberWith_eq_ok_iff.2 (SymbolTable.lookup_eq_some_iff.2 ⟨hmem, rfl⟩),
    hcontext⟩

theorem sublist_members (ht : t.records = (run ops).records) (hc : c ∈ t.classes) :
    c.members.Sublist (t.records.map Record.id) := by
  obtain ⟨before, after, hsplit, hmembers⟩ := members_of_mem_classes ht hc
  rw [hmembers, hsplit, List.map_append, List.map_cons]
  exact ((sublist_filterMap_memberOf? c.id after).cons _).trans (List.sublist_append_right ..)

/-- What is recorded is found later, with the same outline. -/
theorem exists_lookup_of_mem (ht : t.records = (rest.foldl step d).records) (hr : r ∈ d.records) :
    ∃ r', t.lookup r.id = some r' ∧ r'.outline = r.outline := by
  obtain ⟨names, h⟩ := exists_grows_foldl d rest
  obtain ⟨r', hr', houtline⟩ := h.exists_mem hr
  refine ⟨r', SymbolTable.lookup_eq_some_iff.2 ⟨ht ▸ hr', ?_⟩, houtline⟩
  rw [← id_outline r', houtline, id_outline]

/-- A run goes through the draft to which its `i`th operation is done. -/
theorem run_eq_of_getElem? {op : Operation} (h : ops[i]? = some op) :
    run ops = (ops.drop (i + 1)).foldl step ((run (ops.take i)).step op) := by
  obtain ⟨hi, rfl⟩ := List.getElem?_eq_some_iff.1 h
  rw [← List.foldl_cons (f := step), ← List.drop_eq_getElem_cons hi, ← run_append,
    List.take_append_drop]

/-- A class that was added is still found, by any later draft. -/
theorem exists_lookup_class (hj : ops[j]? = some (.class name)) :
    ∃ c, (run ops).lookup (run (ops.take j)).freshId = some (.ofClass c) ∧
      c.scope = (QualifiedName.parse name).scope ∧ c.name = (QualifiedName.parse name).name := by
  obtain ⟨t, -, ht⟩ := SymbolTable.exists_ofRecords (nodup_ids_run ops)
  have hrecords := ht
  rw [run_eq_of_getElem? hj, step, addClass] at hrecords
  obtain ⟨r', hfound, houtline⟩ := exists_lookup_of_mem hrecords (mem_records_add ..)
  obtain ⟨c, rfl, -, hscope, hname⟩ := outline_eq_ofClass houtline
  dsimp only at hscope hname
  refine ⟨c, ?_, hscope, hname⟩
  rw [Draft.lookup, ← ht]
  exact hfound

theorem answer_fundamental (ht : t.records = (run ops).records)
    (hi : ops[i]? = some (.fundamental name)) :
    ∃ id, (run (ops.take i)).answer (.fundamental name) = .type (.of id [] name) ∧
      t.lookup id = some (.ofFundamental { id, name }) := by
  rw [run_eq_of_getElem? hi, step] at ht
  rcases fundamental_cases (run (ops.take i)) name with ⟨id, hid, heq⟩ | ⟨-, heq⟩
  · rw [heq] at ht
    obtain ⟨r', hfound, houtline⟩ := exists_lookup_of_mem ht hid
    exact ⟨id, by rw [answer, heq], by rw [← outline_eq_ofFundamental houtline]; exact hfound⟩
  · rw [heq] at ht
    obtain ⟨r', hfound, houtline⟩ := exists_lookup_of_mem ht (List.mem_concat_self ..)
    exact ⟨_, by rw [answer, heq], by rw [← outline_eq_ofFundamental houtline]; exact hfound⟩

theorem answer_enumeration (ht : t.records = (run ops).records)
    (hi : ops[i]? = some (.enumeration name)) :
    ∃ id, (run (ops.take i)).answer (.enumeration name) =
        .type (.of id (QualifiedName.parse name).scope (QualifiedName.parse name).name) ∧
      t.lookup id = some (.ofEnumeration
        { id, name := (QualifiedName.parse name).name,
          scope := (QualifiedName.parse name).scope }) := by
  rw [run_eq_of_getElem? hi, step] at ht
  obtain ⟨r', hfound, houtline⟩ := exists_lookup_of_mem ht (List.mem_concat_self ..)
  exact ⟨_, rfl, by rw [← outline_eq_ofEnumeration houtline]; exact hfound⟩

theorem answer_classType (ht : t.records = (run ops).records)
    (hi : ops[i]? = some (.classType id))
    (hc : (run (ops.take i)).lookup id = some (.ofClass c)) :
    ∃ c', (run (ops.take i)).answer (.classType id) = .type (.of id c'.scope c'.name) ∧
      t.lookup id = some (.ofClass c') := by
  rw [run_eq_of_getElem? hi, step] at ht
  have hid : (Record.ofClass c).id = id := by simpa using List.find?_some hc
  obtain ⟨r', hfound, houtline⟩ := exists_lookup_of_mem ht (List.mem_of_find?_eq_some hc)
  obtain ⟨c', rfl, -, hscope, hname⟩ := outline_eq_ofClass houtline
  refine ⟨c', ?_, hid ▸ hfound⟩
  rw [answer, classType, hc, hscope, hname]

end

/-- **A draft always becomes a table, and one that accounts for all operations**, whatever
identifiers they take. -/
theorem build_run (ops : List Operation) :
    ∃ t, (run ops).build = .ok t ∧ Accounts ops (answers {} ops) t := by
  obtain ⟨t, hbuild, ht⟩ := SymbolTable.exists_ofRecords (nodup_ids_run ops)
  have hanswer {i : Nat} {op : Operation} (hi : ops[i]? = some op) :
      (answers {} ops)[i]? = some ((run (ops.take i)).answer op) := by
    rw [getElem?_answers, hi]
    rfl
  refine ⟨t, hbuild, ?_⟩
  constructor
  case numbered => exact ht ▸ ids_run ops
  case answered => exact length_answers {} ops
  case ordered =>
    obtain ⟨more, hids, hsublist⟩ := exists_ids_foldl {} ops
    exact ht ▸ hids ▸ hsublist
  case listed => exact fun before c after hsplit =>
    (hsplit ▸ ht ▸ listed_run ops : Listed _).members_eq
  case members => exact fun c hc id hid => memberWith_of_mem_members ht hc hid
  case distinct => exact fun c hc =>
    ⟨t.distinct.sublist (sublist_members ht hc), sublist_members ht hc⟩
  case fundamentals => exact ht ▸ fundamentalNames_run ops
  case fundamental =>
    intro i name hi
    rw [hanswer hi]
    obtain ⟨id, htype, hfound⟩ := answer_fundamental ht hi
    exact ⟨id, congrArg some htype, hfound⟩
  case enumeration =>
    intro i name hi
    rw [hanswer hi]
    obtain ⟨id, htype, hfound⟩ := answer_enumeration ht hi
    exact ⟨id, congrArg some htype, hfound⟩
  case «class» =>
    intro i name hi
    rw [hanswer hi]
    obtain ⟨c, hfound, hscope, hname⟩ := exists_lookup_class hi
    have hid : (Record.ofClass c).id = (run (ops.take i)).freshId := by
      simpa using List.find?_some hfound
    rw [Draft.lookup, ← ht, ← hid] at hfound
    exact ⟨c, congrArg (some ∘ Answer.id) hid.symm, hfound, hscope, hname⟩
  case classType =>
    intro i j name id hji hj hid hi
    rw [hanswer hi]
    rw [hanswer hj] at hid
    -- the class was added before the `i`th operation
    have hbefore : (ops.take i)[j]? = some (.class name) := by
      rw [List.getElem?_take_of_lt hji, hj]
    obtain ⟨c, hfound, -, -⟩ := exists_lookup_class hbefore
    rw [List.take_take, Nat.min_eq_left hji.le] at hfound
    obtain rfl := Answer.id.inj (Option.some.inj hid)
    obtain ⟨c', htype, hfound⟩ := answer_classType ht hi hfound
    exact ⟨c', congrArg some htype, hfound⟩

/-- A member of a class that is not there yet is recorded, and listed nowhere. -/
example : (run [.field ⟨"_2"⟩ "early" (.named "int"), .class "ns::Pair",
      .field ⟨"_2"⟩ "first" (.named "int"), .field ⟨"_1"⟩ "stray" (.named "int"),
      .field ⟨"_2"⟩ "second" (.named "int")]).records.filterMap
        (fun r => r.asClass?.map ClassRecord.members) = [[⟨"_3"⟩, ⟨"_5"⟩]] := by
  cbv

end Draft

end LoadBridge
