import LoadBridge.Proofs.Bridge.Run

/-!
# Bridge — What a wrapper stands for

Every wrapper of a run stands for an arity of a function of the table (`Context.WrapperOf`).  It is
passed through, when all its arguments are there and nothing is loaded, or exported under a number.
-/

namespace LoadBridge

/-- The types in the signature of a function. -/
def FunctionRecord.types (f : FunctionRecord) : List TypeRef :=
  f.returns.toList ++ f.args.map Argument.type

namespace Context

/-- What a wrapper for an arity of `f` says. -/
inductive WrapperOf (ctx : Context) (f : FunctionRecord) : FunctionWrapper → Prop
  | passthrough (arity : Arity) (harity : arity ∈ arities f.args)
      (hall : arity.isTruncated = false) (hloaded : ctx.usesLoaded f.types = false) :
      WrapperOf ctx f (passthrough f arity)
  | exported (arity : Arity) (harity : arity ∈ arities f.args) (returns : TypeRef)
      (hreturns : f.returns = some returns) (counter : Nat) :
      WrapperOf ctx f (ctx.exportedFunction f returns (ctx.usesLoaded f.types) arity counter)

/-- Every wrapper so far stands for an arity of a function of the table. -/
def WrapsTable (ctx : Context) (w : Wrapping) : Prop :=
  ∀ x ∈ w.wrappers, ∃ f ∈ ctx.table.functions, ctx.WrapperOf f x

variable {ctx : Context} {f : FunctionRecord} {w w' : Wrapping}

theorem returnType_eq_ok_iff {returns : TypeRef} :
    f.returnType = .ok returns ↔ f.returns = some returns := by
  rw [FunctionRecord.returnType]
  cases f.returns with
  | none => simp
  | some t => rw [Except.ok.injEq, Option.some_inj]

theorem WrapsTable.of_append {x : FunctionWrapper} (hw : ctx.WrapsTable w)
    (hwrappers : w'.wrappers = w.wrappers ++ [x]) (hf : f ∈ ctx.table.functions)
    (hx : ctx.WrapperOf f x) : ctx.WrapsTable w' := by
  intro y hy
  rw [hwrappers] at hy
  rcases List.mem_append.1 hy with hy | hy
  · exact hw y hy
  · exact ⟨f, hf, List.mem_singleton.1 hy ▸ hx⟩

theorem WrapsTable.wrapArity {returns : TypeRef} {arity : Arity} (hw : ctx.WrapsTable w)
    (hf : f ∈ ctx.table.functions) (hreturns : f.returns = some returns)
    (harity : arity ∈ arities f.args)
    (h : ctx.wrapArity f returns (ctx.usesLoaded f.types) w arity = .ok w') :
    ctx.WrapsTable w' := by
  obtain ⟨verdict, -, h⟩ := bind_eq_ok.1 h
  cases verdict with
  | rejected reason =>
      obtain rfl := Except.ok.inj h
      exact hw
  | accepted =>
      dsimp only at h
      split at h
      · next hpassed =>
        obtain rfl := Except.ok.inj h
        obtain ⟨hloaded, hall⟩ := Bool.and_eq_true_iff.1 hpassed
        exact hw.of_append rfl hf
          (.passthrough arity harity (by simpa using hall) (by simpa using hloaded))
      · obtain rfl := Except.ok.inj h
        exact hw.of_append rfl hf (.exported arity harity returns hreturns w.counter)

theorem WrapsTable.wrapFunction (hw : ctx.WrapsTable w) (hf : f ∈ ctx.table.functions)
    (h : ctx.wrapFunction w f = .ok w') : ctx.WrapsTable w' := by
  rw [Context.wrapFunction] at h
  split at h
  · obtain rfl := Except.ok.inj h
    exact hw
  · obtain ⟨returns, hreturns, h⟩ := bind_eq_ok.1 h
    obtain ⟨next, hfold, h⟩ := bind_eq_ok.1 h
    have hreturns := returnType_eq_ok_iff.1 hreturns
    have htypes : returns :: f.args.map Argument.type = f.types := by
      rw [FunctionRecord.types, hreturns]
      rfl
    rw [htypes] at hfold
    have hnext : ctx.WrapsTable next := foldlM_keeps_of_mem _ w next
      (fun _ harity _ _ hs => hs.wrapArity hf hreturns harity) hw hfold
    split at h <;> cases h <;> exact hnext

theorem WrapsTable.wrapSelected {s : Selector} (hw : ctx.WrapsTable w)
    (h : ctx.wrapSelected w s = .ok w') : ctx.WrapsTable w' := by
  rw [Context.wrapSelected] at h
  split at h
  · obtain rfl := Except.ok.inj h
    exact hw
  · exact foldlM_keeps_of_mem _ w w'
      (fun f hf _ _ hs => hs.wrapFunction (List.mem_filter.1 hf).1) hw h

/-- **Every wrapper stands for an arity of a function of the table.** -/
theorem wrapsTable_wrapFunctions {counter : Nat} (h : ctx.wrapFunctions counter = .ok w) :
    ctx.WrapsTable w := by
  rw [wrapFunctions] at h
  split at h
  · cases h
  · have hnone : ctx.WrapsTable { counter } := fun _ hx => absurd hx List.not_mem_nil
    exact foldlM_keeps (fun _ _ _ hs => hs.wrapSelected) _ _ w hnone (trust_eq_ok_iff.1 h)

end Context

/-- Every wrapper of a run stands for an arity of a function of its table. -/
theorem GenerationOutput.wrapperOf_of_mem_functions {table : SymbolTable} {config : Config}
    {g : GenerationOutput} (h : generate table config = .ok g) {w : FunctionWrapper}
    (hw : w ∈ g.functions) :
    ∃ f ∈ table.functions, (Context.ofRun table config).WrapperOf f w := by
  obtain ⟨-, classes, counter, wrapping, -, hwrapping, rfl⟩ := generate_eq_ok_iff.1 h
  exact Context.wrapsTable_wrapFunctions hwrapping w hw

end LoadBridge
