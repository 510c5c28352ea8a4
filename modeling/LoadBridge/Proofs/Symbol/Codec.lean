import LoadBridge.Symbol.Codec
import LoadBridge.Proofs.Json.Decode
import LoadBridge.Proofs.Json.RoundTrip
import LoadBridge.Proofs.Symbol.Insertion

/-!
# Symbols — Tables survive their written form

What is written of a record is read back field by field (`Record.reads`), and its numbers fit the
words that a reader has for them (`Record.plain`).  So a table is read back from the text of its
document, whatever characters its names have and whatever its records leave open
(`SymbolTable.ofText_toText`).
-/

namespace LoadBridge

open Json (Reads Plain)
open Json.Fields (asFields_bind required required_bind required_eq_bind optional_bind
  optional_eq_bind)

/-! ### What is written is read back -/

theorem RecordId.reads : Reads decode encode := fun _ => rfl

theorem RecordId.encode_ne_null (id : RecordId) : id.encode ≠ .null := by
  simp [encode]

theorem Qualifiers.reads : Reads decode encode := by
  intro cv
  simp [decode, encode, Json.asFields, optional_eq_bind, List.lookup_cons, Json.reads_bool _]

theorem TypeRef.reads : Reads decode encode := by
  intro t
  simp [decode, encode, Json.asFields, optional_eq_bind, required_eq_bind, List.lookup_cons,
    Json.reads_string _, Json.reads_strs _, Json.reads_uint8 _, Json.reads_bool _,
    Json.reads_uint64.list _, Qualifiers.reads _, RecordId.reads.option RecordId.encode_ne_null _]

theorem TypeRef.encode_ne_null (t : TypeRef) : t.encode ≠ .null := by
  simp [encode]

theorem Argument.reads : Reads decode encode := by
  intro a
  simp [decode, encode, Json.asFields, optional_eq_bind, required_eq_bind, List.lookup_cons,
    TypeRef.reads _, Json.reads_string.option Json.str_ne_null _, Json.reads_bool _]

theorem Access.reads (isNothing : Json → Bool) : Reads (decode isNothing) encode := by
  intro a
  cases a <;> rfl

theorem MemberKind.reads (isNothing : Json → Bool) : Reads (decode isNothing) encode := by
  intro k
  cases k <;> rfl

theorem SourceLocation.reads : Reads decode encode := by
  intro l
  -- said of any decoder of words: to unfold the one there is is to count to its bound
  have hread : ∀ word : Json.Decoder UInt32, word (.nat l.line.toNat) = some l.line →
      (do
        let fs ← Json.asFields ["file", "line"] false l.encode
        pure (⟨← required fs "file" Json.asString, ← required fs "line" word⟩ : SourceLocation)) =
      some l := by
    intro word hline
    simp [encode, Json.asFields, required_eq_bind, List.lookup_cons, Json.reads_string _, hline]
  exact hread Json.asUInt32 (Json.reads_uint32 l.line)

theorem SourceLocation.encode_ne_null (l : SourceLocation) : l.encode ≠ .null := by
  simp [encode]

theorem ParentRecord.reads (isNothing : Json → Bool) : Reads (decode isNothing) encode := by
  intro p
  simp [decode, encode, Json.asFields, optional_eq_bind, required_eq_bind, List.lookup_cons,
    RecordId.reads _, Access.reads isNothing _, Json.reads_bool _]

theorem ClassRecord.reads (isNothing : Json → Bool) :
    Reads (decode isNothing) fun c => .obj c.fields := by
  intro c
  have hkeys : (c.fields.map (·.1)).Nodup := by
    simp only [fields, List.map_cons, List.map_nil]
    decide
  rw [decode, asFields_bind, required_bind hkeys RecordId.reads rfl,
    required_bind hkeys Json.reads_string rfl, optional_bind hkeys Json.reads_strs rfl,
    optional_bind hkeys Json.reads_bool rfl, optional_bind hkeys Json.reads_bool rfl,
    optional_bind hkeys Json.reads_bool rfl, optional_bind hkeys RecordId.reads.list rfl,
    optional_bind hkeys (ParentRecord.reads isNothing).list rfl,
    optional_bind hkeys (SourceLocation.reads.option SourceLocation.encode_ne_null) rfl]
  rfl

theorem MemberRecord.reads (isNothing : Json → Bool) :
    Reads (decode isNothing) fun m => .obj m.fields := by
  intro m
  have hkeys : (m.fields.map (·.1)).Nodup := by
    simp only [fields, List.map_cons, List.map_nil]
    decide
  rw [decode, asFields_bind, required_bind hkeys RecordId.reads rfl,
    required_bind hkeys Json.reads_string rfl, required_bind hkeys (MemberKind.reads isNothing) rfl,
    required_bind hkeys RecordId.reads rfl, optional_bind hkeys (Access.reads isNothing) rfl,
    optional_bind hkeys (TypeRef.reads.option TypeRef.encode_ne_null) rfl,
    optional_bind hkeys Argument.reads.list rfl, optional_bind hkeys Json.reads_bool rfl,
    optional_bind hkeys Json.reads_bool rfl, optional_bind hkeys Json.reads_bool rfl,
    optional_bind hkeys Json.reads_bool rfl, optional_bind hkeys Json.reads_bool rfl]
  rfl

theorem FunctionRecord.reads : Reads decode fun f => .obj f.fields := by
  intro f
  have hkeys : (f.fields.map (·.1)).Nodup := by
    simp only [fields, List.map_cons, List.map_nil]
    decide
  rw [decode, asFields_bind, required_bind hkeys RecordId.reads rfl,
    required_bind hkeys Json.reads_string rfl, optional_bind hkeys Json.reads_strs rfl,
    optional_bind hkeys (TypeRef.reads.option TypeRef.encode_ne_null) rfl,
    optional_bind hkeys Argument.reads.list rfl,
    optional_bind hkeys (SourceLocation.reads.option SourceLocation.encode_ne_null) rfl]
  rfl

theorem FundamentalRecord.reads : Reads decode fun r => .obj r.fields := by
  intro r
  simp [decode, fields, Json.asFields, required_eq_bind, List.lookup_cons, RecordId.reads _,
    Json.reads_string _]

theorem EnumerationRecord.reads : Reads decode fun r => .obj r.fields := by
  intro r
  simp [decode, fields, Json.asFields, optional_eq_bind, required_eq_bind, List.lookup_cons,
    RecordId.reads _, Json.reads_string _, Json.reads_strs _]

theorem NamespaceRecord.reads : Reads decode fun r => .obj r.fields := by
  intro r
  simp [decode, fields, Json.asFields, optional_eq_bind, required_eq_bind, List.lookup_cons,
    RecordId.reads _, Json.reads_string _, Json.reads_strs _]

namespace Record

/-- No field of a record has the name of the field that holds its kind. -/
theorem ne_kindField (r : Record) : ∀ f ∈ r.fields, (f.1 != kindField) = true := by
  cases r <;>
    simp [fields, ClassRecord.fields, MemberRecord.fields, FunctionRecord.fields,
      FundamentalRecord.fields, EnumerationRecord.fields, NamespaceRecord.fields, kindField]

/-- The kind of a record and its fields are told apart. -/
theorem splitKind_encode (r : Record) :
    splitKind r.encode = some (r.kind.text, .obj r.fields) := by
  have hfields : r.fields.filter (fun f => f.1 != kindField) = r.fields :=
    List.filter_eq_self.2 r.ne_kindField
  have hkind : r.fields.filter (fun f => f.1 = kindField) = [] :=
    List.filter_eq_nil_iff.2 fun f hf heq => by
      simpa [of_decide_eq_true heq] using r.ne_kindField f hf
  simp [splitKind, encode, required, Json.Fields.given, hfields, hkind, Json.asString]

/-- **A record of any kind is read back.** -/
theorem reads : Reads decode encode := by
  intro r
  rw [decode, splitKind_encode]
  cases r with
  | ofClass c => simp [kind, RecordKind.text, fields, ClassRecord.reads Json.isHollow c]
  | ofMember m => simp [kind, RecordKind.text, fields, MemberRecord.reads Json.isHollow m]
  | ofFunction f => simp [kind, RecordKind.text, fields, FunctionRecord.reads f]
  | ofFundamental r => simp [kind, RecordKind.text, fields, FundamentalRecord.reads r]
  | ofEnumeration r => simp [kind, RecordKind.text, fields, EnumerationRecord.reads r]
  | ofNamespace r => simp [kind, RecordKind.text, fields, NamespaceRecord.reads r]

end Record

/-! ### What is written is plain -/

section Plain

variable {depth : Nat}

theorem RecordId.plain (id : RecordId) : Plain depth id.encode := .str _

theorem Qualifiers.plain (cv : Qualifiers) : Plain (depth + 1) cv.encode := by
  refine .obj ?_
  simp only [List.forall_mem_cons]
  exact ⟨.bool _, .bool _, List.forall_mem_nil _⟩

theorem TypeRef.plain (t : TypeRef) : Plain (depth + 2) t.encode := by
  have hdepth : t.pointerDepth.toNat < UInt64.size :=
    Nat.lt_trans t.pointerDepth.toNat_lt (by decide)
  have hextents : Plain (depth + 1) (.arr (t.extents.map fun n => .nat n.toNat)) :=
    .list (fun n => .nat n.toNat_lt) _
  refine .obj ?_
  simp only [List.forall_mem_cons]
  exact ⟨.str _, .strs _, .nat hdepth, .bool _, hextents, Qualifiers.plain _,
    .option RecordId.plain _, List.forall_mem_nil _⟩

theorem Argument.plain (a : Argument) : Plain (depth + 3) a.encode := by
  refine .obj ?_
  simp only [List.forall_mem_cons]
  exact ⟨a.type.plain, .option .str _, .bool _, List.forall_mem_nil _⟩

theorem SourceLocation.plain (l : SourceLocation) : Plain (depth + 1) l.encode := by
  have hline : l.line.toNat < UInt64.size := Nat.lt_trans l.line.toNat_lt (by decide)
  refine .obj ?_
  simp only [List.forall_mem_cons]
  exact ⟨.str _, .nat hline, List.forall_mem_nil _⟩

theorem ParentRecord.plain (p : ParentRecord) : Plain (depth + 1) p.encode := by
  refine .obj ?_
  simp only [List.forall_mem_cons]
  exact ⟨p.id.plain, .str _, .bool _, List.forall_mem_nil _⟩

theorem ClassRecord.plain (c : ClassRecord) : ∀ f ∈ c.fields, Plain (depth + 2) f.2 := by
  simp only [fields, List.forall_mem_cons]
  exact ⟨c.id.plain, .str _, .strs _, .bool _, .bool _, .bool _, .list RecordId.plain _,
    .list ParentRecord.plain _, .option SourceLocation.plain _, List.forall_mem_nil _⟩

theorem MemberRecord.plain (m : MemberRecord) : ∀ f ∈ m.fields, Plain (depth + 4) f.2 := by
  simp only [fields, List.forall_mem_cons]
  exact ⟨m.id.plain, .str _, .str _, m.context.plain, .str _, .option TypeRef.plain _,
    .list Argument.plain _, .bool _, .bool _, .bool _, .bool _, .bool _, List.forall_mem_nil _⟩

theorem FunctionRecord.plain (r : FunctionRecord) : ∀ f ∈ r.fields, Plain (depth + 4) f.2 := by
  simp only [fields, List.forall_mem_cons]
  exact ⟨r.id.plain, .str _, .strs _, .option TypeRef.plain _, .list Argument.plain _,
    .option SourceLocation.plain _, List.forall_mem_nil _⟩

theorem FundamentalRecord.plain (r : FundamentalRecord) : ∀ f ∈ r.fields, Plain depth f.2 := by
  simp only [fields, List.forall_mem_cons]
  exact ⟨r.id.plain, .str _, List.forall_mem_nil _⟩

theorem EnumerationRecord.plain (r : EnumerationRecord) :
    ∀ f ∈ r.fields, Plain (depth + 1) f.2 := by
  simp only [fields, List.forall_mem_cons]
  exact ⟨r.id.plain, .str _, .strs _, List.forall_mem_nil _⟩

theorem NamespaceRecord.plain (r : NamespaceRecord) : ∀ f ∈ r.fields, Plain (depth + 1) f.2 := by
  simp only [fields, List.forall_mem_cons]
  exact ⟨r.id.plain, .str _, .strs _, List.forall_mem_nil _⟩

/-- **A record of any kind is written plain**, arguments with types in them being the deepest. -/
theorem Record.plain (r : Record) : Plain 5 r.encode := by
  have hfields : ∀ f ∈ r.fields, Plain 4 f.2 := by
    cases r with
    | ofClass c => exact c.plain
    | ofMember m => exact m.plain
    | ofFunction f => exact f.plain
    | ofFundamental r => exact r.plain
    | ofEnumeration r => exact r.plain
    | ofNamespace r => exact r.plain
  exact .obj (List.forall_mem_cons.2 ⟨.str _, hfields⟩)

end Plain

/-! ### Tables -/

namespace SymbolTable

theorem decodeRecords_toDocument (t : SymbolTable) :
    decodeRecords t.toDocument = some t.records := by
  simp [decodeRecords, toDocument, Json.asFields, required_eq_bind, Record.reads.list _]

/-- **A table is read back from the text of its document.** -/
theorem ofText_toText (t : SymbolTable) : ofText t.toText = .ok t := by
  have hplain : Plain 7 t.toDocument :=
    .obj (List.forall_mem_cons.2 ⟨.list Record.plain _, List.forall_mem_nil _⟩)
  have hparse : Json.parseWanted? (· == recordsField) t.toText = some t.toDocument := by
    refine Json.parseWanted?_pretty hplain (by decide) fun fields hfields f hf => ?_
    obtain rfl := Json.obj.inj hfields
    obtain rfl := List.mem_singleton.1 hf
    exact beq_self_eq_true _
  obtain ⟨u, hu, hrecords⟩ := exists_ofRecords t.distinct
  obtain rfl := eq_of_records_eq hrecords
  rw [ofText, hparse]
  simp only [ofDocument, decodeRecords_toDocument, hu]

/-- **Tables survive their written form.**  Records with identifiers of their own make a table; its
text is read back as a table of the same records in the same order, which finds under every
identifier and every name what the first one finds. -/
theorem survives_text (records : List Record) (h : (records.map Record.id).Nodup) :
    ∃ t, ofRecords records = .ok t ∧ t.records = records ∧
      ∃ u, ofText t.toText = .ok u ∧ u.records = records ∧
        (∀ id, u.lookup id = t.lookup id) ∧ ∀ name, u.lookupName name = t.lookupName name := by
  obtain ⟨t, ht, hrecords⟩ := exists_ofRecords h
  exact ⟨t, ht, hrecords, t, ofText_toText t, hrecords, fun _ => rfl, fun _ => rfl⟩

/-- A record of each kind, with quotes, a backslash, control characters and an emoji in names, the
largest words in numbers, and optional parts given and left out. -/
def kindRecords : List Record :=
  let type : TypeRef :=
    { name := "a\"b\\c\n\x00\x1f", scope := ["", "😀"], pointerDepth := 255, isReference := true
      extents := [0, 18446744073709551615], cv := ⟨true, false⟩, element := some ⟨"_9"⟩ }
  [.ofClass
      { id := ⟨"_1"⟩, name := "C<int>", scope := ["n"], isIncomplete := true, members := [⟨"_2"⟩]
        bases := [{ id := ⟨"_1"⟩, access := .forHeirs, isVirtual := true }]
        location := some ⟨"c.h", 4294967295⟩ },
    .ofMember
      { id := ⟨"_2"⟩, name := "+", kind := .operator, context := ⟨"_1"⟩, access := .forSelf
        type := some type, args := [{ type, name := some "", hasDefault := true }, { type }] },
    .ofFunction { id := ⟨"_3"⟩, name := "f", args := [{ type }] },
    .ofFundamental ⟨⟨"_4"⟩, "int"⟩, .ofEnumeration ⟨⟨"_5"⟩, "E", ["n"]⟩,
    .ofNamespace ⟨⟨""⟩, "n", []⟩]

theorem survives_text_kinds : (kindRecords.map Record.id).Nodup ∧
    ∃ t, ofRecords kindRecords = .ok t ∧ t.records = kindRecords ∧
      ∃ u, ofText t.toText = .ok u ∧ u.records = kindRecords ∧
        (∀ id, u.lookup id = t.lookup id) ∧ ∀ name, u.lookupName name = t.lookupName name :=
  ⟨by decide, survives_text kindRecords (by decide)⟩

end SymbolTable

end LoadBridge
