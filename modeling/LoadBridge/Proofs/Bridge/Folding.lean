import LoadBridge.Proofs.Bridge.Accessibility

/-!
# Bridge — Overloads are taken over together

A class takes members over from its ancestors class by class, and a name is taken once a class has
brought it in.  So all members of one name that are taken over come from one class, which passes on
all that it has of this name (`SymbolTable.filter_name_foldIn`), the class itself declares none of
the name, and no name is lost (`Context.foldsIn_of_collectMembers`).
-/

namespace LoadBridge

namespace SymbolTable

variable {t : SymbolTable} {seen : List String} {classes : List ClassRecord}
  {members : List MemberRecord} {items : List OwnedMember} {item : OwnedMember} {name : String}

/-- The members of this name that heirs can offer, in order. -/
def overloads (members : List MemberRecord) (name : String) : List MemberRecord :=
  members.filter fun m => m.isInheritable && m.name == name

/-- Under a name that is not seen, all of them are passed on. -/
theorem filter_name_passedOn (hname : name ∉ seen) :
    (passedOn seen members).filter (fun m => m.name == name) = overloads members name := by
  rw [passedOn, List.filter_filter]
  refine List.filter_congr fun m _ => ?_
  by_cases hsame : m.name = name
  · simp [hsame, hname]
  · simp [beq_false_of_ne hsame]

/-- **Members of one name are taken over from one class**, all that it has to pass on, in order. -/
theorem filter_name_foldIn (h : t.foldIn seen classes = .ok items) (hitem : item ∈ items) :
    ∃ members, t.membersOf item.1 = .ok members ∧
      items.filter (fun other => other.2.name == item.2.name) =
        (overloads members item.2.name).map fun m => (item.1, m) := by
  induction classes generalizing seen items with
  | nil =>
      cases h
      cases hitem
  | cons c rest ih =>
      obtain ⟨-, -, hunseen, -⟩ := of_mem_foldIn h hitem
      obtain ⟨members, others, hmembers, hothers, rfl⟩ := foldIn_cons_eq_ok_iff.1 h
      have hfirst : ((passedOn seen members).map fun m => (c, m)).filter
          (fun other => other.2.name == item.2.name) =
            (overloads members item.2.name).map fun m => (c, m) := by
        rw [List.filter_map, ← filter_name_passedOn hunseen]
        rfl
      rw [List.filter_append]
      rcases List.mem_append.1 hitem with hitem | hitem
      -- the classes that come later bring in no more of the name
      · obtain ⟨m, hm, rfl⟩ := List.mem_map.1 hitem
        have hnone : others.filter (fun other => other.2.name == m.name) = [] := by
          refine List.filter_eq_nil_iff.2 fun other hother hsame => ?_
          obtain ⟨-, -, hother, -⟩ := of_mem_foldIn hothers hother
          refine hother (List.mem_append_right _ ?_)
          exact eq_of_beq hsame ▸ List.mem_map_of_mem hm
        exact ⟨members, hmembers, by rw [hfirst, hnone, List.append_nil]⟩
      -- the first class has brought in none of it
      · obtain ⟨declared, hdeclared, hfilter⟩ := ih hothers hitem
        obtain ⟨-, -, hlater, -⟩ := of_mem_foldIn hothers hitem
        have hnone : ((passedOn seen members).map fun m => (c, m)).filter
            (fun other => other.2.name == item.2.name) = [] := by
          refine List.filter_eq_nil_iff.2 fun other hother hsame => ?_
          obtain ⟨m, hm, rfl⟩ := List.mem_map.1 hother
          refine hlater (List.mem_append_right _ ?_)
          exact eq_of_beq hsame ▸ List.mem_map_of_mem hm
        exact ⟨declared, hdeclared, by rw [hnone, hfilter, List.nil_append]⟩

end SymbolTable

namespace Context

variable {ctx : Context} {c : ClassRecord} {items : List OwnedMember}

/-- How a class with these members of its own takes over others. -/
structure FoldsIn (ctx : Context) (c : ClassRecord) (own : List MemberRecord)
    (taken : List OwnedMember) : Prop where
  /-- They are public methods, operators and fields. -/
  inheritable : ∀ item ∈ taken, item.2.isInheritable = true
  /-- They belong to classes that are not loaded, reached through such classes. -/
  reached : ∀ item ∈ taken,
    ctx.table.Declares item.1 item.2 ∧ Relation.TransGen ctx.IsUnloadedBase c item.1
  /-- All of one name come from one class, which passes on all that it has of the name. -/
  together : ∀ item ∈ taken, ∃ members, ctx.table.membersOf item.1 = .ok members ∧
    taken.filter (fun other => other.2.name == item.2.name) =
      (SymbolTable.overloads members item.2.name).map fun m => (item.1, m)
  /-- The class itself declares none of the name. -/
  unhidden : ∀ item ∈ taken, ∀ m ∈ own, m.name ≠ item.2.name
  /-- Every name that such a class has to pass on is there. -/
  complete : ∀ a m, Relation.TransGen ctx.IsUnloadedBase c a → ctx.table.Declares a m →
    m.isInheritable = true → ∃ item ∈ own.map (fun m => (c, m)) ++ taken, item.2.name = m.name

/-- **Overloads are taken over together, and no name is lost.**  For every table, cyclic or not, and
every class of it, the members of a class are its own, in order, and then those that it takes over:
none unless heirs take members over. -/
theorem foldsIn_of_collectMembers (hc : c ∈ ctx.table.classes)
    (h : ctx.collectMembers c = .ok items) : ∃ own taken,
      ctx.table.membersOf c = .ok own ∧ items = own.map (fun m => (c, m)) ++ taken ∧
      (ctx.config.load.inheritedMembers = true → ctx.FoldsIn c own taken) ∧
      (ctx.config.load.inheritedMembers = false → taken = []) := by
  obtain ⟨own, taken, hown, htaken, rfl⟩ := collectMembers_eq_ok_iff.1 h
  rw [inheritedMembers] at htaken
  refine ⟨own, taken, hown, rfl, fun hinherit => ?_, fun hinherit => ?_⟩
  · rw [if_pos hinherit] at htaken
    constructor
    case inheritable => exact fun item hitem => (SymbolTable.of_mem_foldIn htaken hitem).2.1
    case reached =>
      intro item hitem
      exact ⟨(SymbolTable.of_mem_foldIn htaken hitem).1,
        (mem_unloadedAncestors hc).1 (SymbolTable.owner_of_mem_foldIn htaken hitem)⟩
    case together => exact fun item hitem => SymbolTable.filter_name_foldIn htaken hitem
    case unhidden =>
      intro item hitem m hm hsame
      obtain ⟨-, -, hunseen, -⟩ := SymbolTable.of_mem_foldIn htaken hitem
      exact hunseen (hsame ▸ List.mem_map_of_mem hm)
    case complete =>
      exact fun a m ha hm hheir => exists_mem_collectMembers hc h hinherit ha hm hheir
  · rw [if_neg (by simp [hinherit])] at htaken
    exact (Except.ok.inj htaken).symm

/-! ### A class with two parents -/

/-- The first parent, with two overloads of a method and a private one. -/
def bufferRecord : ClassRecord where
  id := ⟨"_1"⟩
  name := "Buffer"
  members := [⟨"_4"⟩, ⟨"_5"⟩, ⟨"_6"⟩]

/-- The second parent, with a method of the same name and another. -/
def storeRecord : ClassRecord where
  id := ⟨"_2"⟩
  name := "Store"
  members := [⟨"_7"⟩, ⟨"_8"⟩]

def queueRecord : ClassRecord where
  id := ⟨"_3"⟩
  name := "Queue"
  members := [⟨"_9"⟩]
  bases := [{ id := ⟨"_1"⟩ }, { id := ⟨"_2"⟩ }]

def bufferMembers : List MemberRecord :=
  [{ id := ⟨"_4"⟩, name := "size", kind := .method, context := ⟨"_1"⟩ },
    { id := ⟨"_5"⟩, name := "grow", kind := .method, context := ⟨"_1"⟩, access := .forSelf },
    { id := ⟨"_6"⟩, name := "size", kind := .method, context := ⟨"_1"⟩
      args := [{ type := .named "int" }] }]

def storeMembers : List MemberRecord :=
  [{ id := ⟨"_7"⟩, name := "size", kind := .method, context := ⟨"_2"⟩ },
    { id := ⟨"_8"⟩, name := "clear", kind := .method, context := ⟨"_2"⟩ }]

def queueMembers : List MemberRecord :=
  [{ id := ⟨"_9"⟩, name := "push", kind := .method, context := ⟨"_3"⟩ }]

/-- Only the heir is loaded. -/
def queueContext : Context :=
  (new
    { records := [.ofClass bufferRecord, .ofClass storeRecord, .ofClass queueRecord] ++
        (bufferMembers ++ storeMembers ++ queueMembers).map .ofMember
      distinct := by decide }
    { load := { inheritedMembers := true } }).register [⟨[], "Queue"⟩]

theorem foldsIn_of_collectMembers_queue : queueRecord ∈ queueContext.table.classes ∧
    ∃ items own taken, queueContext.collectMembers queueRecord = .ok items ∧
      items.map (fun item => (item.1.name, item.2.name)) =
        [("Queue", "push"), ("Buffer", "size"), ("Buffer", "size"), ("Store", "clear")] ∧
      items = own.map (fun m => (queueRecord, m)) ++ taken ∧
      queueContext.FoldsIn queueRecord own taken := by
  have hc : queueRecord ∈ queueContext.table.classes := by decide
  have hnames : (queueContext.collectMembers queueRecord).map
      (fun items => items.map fun item => (item.1.name, item.2.name)) =
        .ok [("Queue", "push"), ("Buffer", "size"), ("Buffer", "size"), ("Store", "clear")] := by
    cbv
  obtain ⟨items, hitems, hnames⟩ := map_eq_ok.1 hnames
  obtain ⟨own, taken, -, hsplit, hfolds, -⟩ := foldsIn_of_collectMembers hc hitems
  exact ⟨hc, items, own, taken, hitems, hnames, hsplit, hfolds rfl⟩

end Context

end LoadBridge
