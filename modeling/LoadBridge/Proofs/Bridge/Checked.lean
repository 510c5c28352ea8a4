import LoadBridge.Proofs.Bridge.Run
import LoadBridge.Proofs.Symbol.Index

/-!
# Bridge — Steps that may fail

Some steps of a run are partial by themselves: a level of indirection is added to a depth of eight
bits, arguments are taken off the end of a list, names are cut at offsets, and tables are read at
positions.  Each is done here with a check, and the check is shown to pass whatever the step is
given: indirection is added to values only, no more arguments are taken off than have defaults, and
offsets and positions come from what was found.
-/

namespace LoadBridge

/-! ### Indirection -/

theorem TypeRef.pointer?_of_isByValue {t : TypeRef} (h : t.isByValue = true) :
    t.pointer? = some (t.pointerTo (room_of_isByValue h)) := dif_pos (room_of_isByValue h)

/-- There is no room at the deepest indirection. -/
example : ({ name := "Point", pointerDepth := 255 } : TypeRef).pointer? = none := by decide

/-- `interfaceReturnType`, with an indirection that may fail. -/
def Context.interfaceReturnType? (ctx : Context) (side : Side) (type : TypeRef) : Option String :=
  match ctx.loaded? type with
  | none => some (ctx.libraryType type)
  | some names =>
    let base := ctx.interfaceName names side
    if type.isByValue then type.pointer?.map fun pointer => pointer.renderWith base
    else some (type.renderWith base)

/-- **A level of indirection is added where there is none**, so there is room for it. -/
theorem Context.interfaceReturnType?_eq (ctx : Context) (side : Side) (type : TypeRef) :
    ctx.interfaceReturnType? side type = some (ctx.interfaceReturnType side type) := by
  rw [interfaceReturnType?, interfaceReturnType]
  cases ctx.loaded? type with
  | none => rfl
  | some names =>
    dsimp only
    split
    · next h =>
      rw [TypeRef.pointer?_of_isByValue h]
      rfl
    · rfl

/-! ### Arguments -/

/-- `arities`, where the number of arguments that stay and their list may not exist. -/
def arities? (args : List Argument) : Option (List Arity) :=
  (List.range (trailingDefaults args + 1)).mapM fun removed => do
    let kept ← args.length.psub removed
    if kept ≤ args.length then some ⟨args.take kept, removed⟩ else none

theorem mapM_eq_some_map {α β : Type} {f : α → Option β} {g : α → β} {as : List α}
    (h : ∀ a ∈ as, f a = some (g a)) : as.mapM f = some (as.map g) := by
  induction as with
  | nil => rfl
  | cons a rest ih =>
    rw [List.mapM_cons, h a List.mem_cons_self, ih fun b hb => h b (List.mem_cons_of_mem a hb)]
    rfl

/-- **No more arguments are taken off than there are**: no more have defaults. -/
theorem arities?_eq (args : List Argument) : arities? args = some (arities args) := by
  refine mapM_eq_some_map fun removed hremoved => ?_
  have hle : removed ≤ args.length :=
    (Nat.le_of_lt_succ (List.mem_range.1 hremoved)).trans (trailingDefaults_le args)
  rw [Nat.psub_eq_sub hle]
  exact if_pos (Nat.sub_le _ _)

/-- `takesOnly`, where the first argument may not exist. -/
def takesOnly? (c : ClassRecord) (m : MemberRecord) : Option Bool :=
  if m.args.length = 1 then m.args[0]?.map fun a => a.type.element == some c.id else some false

theorem takesOnly?_eq (c : ClassRecord) (m : MemberRecord) :
    takesOnly? c m = some (takesOnly c m) := by
  rw [takesOnly?, takesOnly]
  rcases m.args with _ | ⟨a, _ | ⟨b, rest⟩⟩ <;> simp

/-! ### Runs -/

open Context

/-- Each step of a run that may fail by itself does not, and gives what the run goes on with. -/
structure StepsSucceed (table : SymbolTable) (config : Config) : Prop where
  /-- A return type is spelled, with one level of indirection more for a value. -/
  pointer : ∀ (ctx : Context) side type,
    ctx.interfaceReturnType? side type = some (ctx.interfaceReturnType side type)
  /-- A callable is offered with fewer arguments. -/
  arities : ∀ args, arities? args = some (LoadBridge.arities args)
  /-- The only argument of a copy is read. -/
  argument : ∀ c m, takesOnly? c m = some (takesOnly c m)
  /-- A template bracket is cut off. -/
  bracket : ∀ s, Name.splitTemplate? s = some (Name.splitTemplate s)
  /-- A name is marked in front of its bracket. -/
  marked : ∀ (n : QualifiedName) mark, n.marked? mark = some (n.marked mark)
  /-- A selector is read. -/
  selector : ∀ text, Selector.parse? text = some (Selector.parse text)
  /-- The records are put in an index, and read at the positions that it gives. -/
  records : ∃ index, SymbolIndex.ofRecords table.records = .ok index ∧
    (∀ id, index.lookup? id = some (table.lookup id)) ∧
    ∀ q, index.lookupName? q = some (table.lookupName q)
  /-- The names of the load set are registered, and read at their positions. -/
  names : ∃ index, (NameIndex.new config.affixes config.output.backendNamespace).registerAll?
      ((new table config).loadSet.map fun c => ⟨c.scope, c.name⟩) = some index ∧
    ∀ q, index.get? q = some ((ofRun table config).names.get? q)

/-- **No step of a run fails by itself**, for any table and any configuration. -/
theorem steps_succeed (table : SymbolTable) (config : Config) : StepsSucceed table config where
  pointer := interfaceReturnType?_eq
  arities := arities?_eq
  argument := takesOnly?_eq
  bracket := Name.splitTemplate?_eq
  marked := QualifiedName.marked?_eq
  selector := Selector.parse?_eq
  records := by
    have hagree := SymbolIndex.agree_ofRecords table.records
    rw [SymbolTable.ofRecords_eq_ok_iff.2 rfl] at hagree
    generalize hindex : SymbolIndex.ofRecords table.records = result at hagree
    cases hagree with
    | ok h => exact ⟨_, rfl, h.lookup?, h.lookupName?⟩
  names := by
    obtain ⟨index, hindex, h⟩ := (NameIndex.indexes_new config.affixes
      config.output.backendNamespace).registerAll?
        ((new table config).loadSet.map fun c => ⟨c.scope, c.name⟩)
    exact ⟨index, hindex, h.get?⟩

end LoadBridge
