import LoadBridge.Proofs.Bridge.Defaults

/-!
# Bridge — Which functions are wrapped

A function that is selected is attempted unless its signature is done, and its signature is done
once it is attempted if an arity of it is accepted.  So a signature is done where some function that
has it is selected and wrappable (`Context.mem_done_iff`), once (`Context.nodup_done`), in whatever
order, and however often, the functions are selected.

The order matters only where functions of one signature are told apart by a selector: which of
them is attempted decides whether the run fails.  Where they are picked alike it is the first in the
table that is wrappable, and those before it (`Context.mem_attempted_iff`), so what is attempted
depends on what is selected and on nothing else.
-/

namespace LoadBridge

/-- One of the selectors with these texts picks the function. -/
def SelectedBy (texts : List String) (f : FunctionRecord) : Prop :=
  ∃ text ∈ texts, ∃ s, Selector.parse text = .ok s ∧ s.picks f = true

/-- Functions of one signature are picked by the same selectors. -/
def SymbolTable.SignaturesTell (t : SymbolTable) : Prop :=
  ∀ f ∈ t.functions, ∀ g ∈ t.functions, f.signature = g.signature →
    ∀ s : Selector, s.picks f = s.picks g

theorem SymbolTable.nodup_functions (t : SymbolTable) : t.functions.Nodup := by
  refine List.Nodup.filterMap (fun r r' f hr hr' => ?_) (.of_map _ t.distinct)
  cases r <;> cases hr
  cases r' <;> cases hr'
  rfl

theorem SymbolTable.signaturesTell_of_types {t : SymbolTable}
    (h : ∀ f ∈ t.functions, ∀ g ∈ t.functions, f.signature = g.signature →
      f.qualifiedName = g.qualifiedName ∧
        f.args.map Argument.type = g.args.map Argument.type) : t.SignaturesTell := by
  intro f hf g hg hsame s
  obtain ⟨hname, htypes⟩ := h f hf g hg hsame
  have hkeys (f : FunctionRecord) : (f.args.map fun a => Name.key a.type.display) =
      (f.args.map Argument.type).map fun type => Name.key type.display := by
    rw [List.map_map]
    rfl
  rw [Selector.picks, Selector.picks, hname, hkeys, hkeys, htypes]

namespace Context

variable {ctx : Context} {e f : FunctionRecord} {fs first last : List FunctionRecord}
  {done : List String} {selectors : List Selector} {s : Selector} {w w' : Wrapping}

/-! ### The signatures that are done -/

/-- What is attempted is selected, and its signature is new. -/
theorem of_mem_attempted (h : f ∈ ctx.attempted done fs) : f ∈ fs ∧ f.signature ∉ done := by
  induction fs generalizing done with
  | nil => cases h
  | cons g rest ih =>
      rw [attempted] at h
      split at h
      · obtain ⟨hmem, hnew⟩ := ih h
        exact ⟨List.mem_cons_of_mem _ hmem, hnew⟩
      · next hfresh =>
        rcases List.mem_cons.1 h with rfl | h
        · exact ⟨List.mem_cons_self, by simpa using hfresh⟩
        · obtain ⟨hmem, hnew⟩ := ih h
          refine ⟨List.mem_cons_of_mem _ hmem, fun hdone => hnew ?_⟩
          split
          · exact List.mem_append_left _ hdone
          · exact hdone

/-- The signatures that are done after these functions are selected in this order. -/
def doneAfter (ctx : Context) (done : List String) (fs : List FunctionRecord) : List String :=
  done ++ ((ctx.attempted done fs).filter ctx.isWrappable).map FunctionRecord.signature

/-- **No signature is done twice.** -/
theorem nodup_doneAfter (h : done.Nodup) : (ctx.doneAfter done fs).Nodup := by
  induction fs generalizing done with
  | nil => simpa [doneAfter, attempted] using h
  | cons g rest ih =>
      rw [doneAfter, attempted]
      split
      · exact ih h
      · next hfresh =>
        have hnew : g.signature ∉ done := by simpa using hfresh
        by_cases hwrappable : ctx.isWrappable g = true
        · have hmore : (done ++ [g.signature]).Nodup :=
            h.append (List.nodup_singleton _) (List.disjoint_singleton.2 hnew)
          simpa [doneAfter, hwrappable] using ih hmore
        · simpa [doneAfter, hwrappable] using ih h

/-- **A signature is done where a function that has it is selected and wrappable.** -/
theorem mem_doneAfter_iff {signature : String} : signature ∈ ctx.doneAfter done fs ↔
    signature ∈ done ∨ ∃ f ∈ fs, f.signature = signature ∧ ctx.isWrappable f = true := by
  rw [doneAfter, List.mem_append]
  constructor
  · refine Or.imp_right fun h => ?_
    obtain ⟨f, hf, hsignature⟩ := List.mem_map.1 h
    obtain ⟨hattempted, hwrappable⟩ := List.mem_filter.1 hf
    exact ⟨f, (of_mem_attempted hattempted).1, hsignature, hwrappable⟩
  · rintro (hdone | ⟨f, hf, rfl, hwrappable⟩)
    · exact .inl hdone
    rcases mem_attempted_or_done hf with hmem | hdone | ⟨e, he, hewrappable, hsame⟩
    · exact .inr (List.mem_map_of_mem (List.mem_filter.2 ⟨hmem, hwrappable⟩))
    · exact .inl hdone
    · exact .inr (hsame ▸ List.mem_map_of_mem (List.mem_filter.2 ⟨he, hewrappable⟩))

theorem attempted_append_eq : ctx.attempted done (first ++ last) =
    ctx.attempted done first ++ ctx.attempted (ctx.doneAfter done first) last :=
  attempted_append ctx done first last

/-! ### What is attempted -/

/-- After a wrappable function none of its signature is attempted. -/
theorem not_mem_attempted_of_wrappable (he : e ∈ first) (hwrappable : ctx.isWrappable e = true)
    (hsame : e.signature = f.signature) (hf : f ∉ first) :
    f ∉ ctx.attempted done (first ++ last) := by
  intro h
  rw [attempted_append_eq] at h
  rcases List.mem_append.1 h with h | h
  · exact hf (of_mem_attempted h).1
  · exact (of_mem_attempted h).2 (mem_doneAfter_iff.2 (.inr ⟨e, he, hsame, hwrappable⟩))

/-- Where a function is attempted, so are those of its signature that are selected before it. -/
theorem mem_attempted_of_later (h : e ∈ ctx.attempted done (first ++ f :: last)) (he : e ∉ first)
    (hsame : e.signature = f.signature) : f ∈ ctx.attempted done (first ++ f :: last) := by
  rw [attempted_append_eq] at h ⊢
  refine List.mem_append_right _ ?_
  have hlater := (List.mem_append.1 h).resolve_left fun h => he (of_mem_attempted h).1
  have hnew : (ctx.doneAfter done first).contains f.signature = false := by
    rw [← hsame]
    simpa using (of_mem_attempted hlater).2
  rw [attempted, if_neg (by rw [hnew]; exact Bool.false_ne_true)]
  exact List.mem_cons_self

/-- No function of its signature that is declared before it is wrappable. -/
def IsForemost (ctx : Context) (f : FunctionRecord) : Prop :=
  ∀ first last, ctx.table.functions = first ++ f :: last → ∀ e ∈ first,
    e.signature = f.signature → ctx.isWrappable e = false

theorem filter_functions_split (h : ctx.table.functions = first ++ f :: last)
    (hf : s.picks f = true) :
    ctx.table.functions.filter s.picks = first.filter s.picks ++ f :: last.filter s.picks := by
  rw [h, List.filter_append, List.filter_cons_of_pos hf]

theorem not_mem_first (h : ctx.table.functions = first ++ f :: last) : f ∉ first := by
  have hnodup := ctx.table.nodup_functions
  rw [h] at hnodup
  exact fun hf => List.disjoint_of_nodup_append hnodup hf List.mem_cons_self

/-- Of the functions that one selector picks the foremost are attempted. -/
theorem isForemost_of_mem_attempted (htell : ctx.table.SignaturesTell)
    (h : f ∈ ctx.attempted done (ctx.table.functions.filter s.picks)) : ctx.IsForemost f := by
  intro first last hsplit e he hsame
  obtain ⟨hf, hpicked⟩ := List.mem_filter.1 (of_mem_attempted h).1
  have hemem : e ∈ ctx.table.functions := hsplit ▸ List.mem_append_left _ he
  have hepicked : s.picks e = true := (htell e hemem f hf hsame s).trans hpicked
  by_contra hwrappable
  rw [filter_functions_split hsplit hpicked] at h
  exact not_mem_attempted_of_wrappable (List.mem_filter.2 ⟨he, hepicked⟩)
    (by simpa using hwrappable) hsame (fun hmem => not_mem_first hsplit (List.mem_filter.1 hmem).1) h

theorem selected_cons (ctx : Context) (s : Selector) (rest : List Selector) :
    ctx.selected (s :: rest) = ctx.table.functions.filter s.picks ++ ctx.selected rest := rfl

theorem mem_selected_iff : f ∈ ctx.selected selectors ↔
    f ∈ ctx.table.functions ∧ ∃ s ∈ selectors, s.picks f = true := by
  simp only [selected, List.mem_flatMap, List.mem_filter]
  constructor
  · rintro ⟨s, hs, hf, hpicked⟩
    exact ⟨hf, s, hs, hpicked⟩
  · rintro ⟨hf, s, hs, hpicked⟩
    exact ⟨s, hs, hf, hpicked⟩

/-- What is attempted is attempted under one of the selectors. -/
theorem exists_selector_of_mem_attempted (h : f ∈ ctx.attempted done (ctx.selected selectors)) :
    ∃ before, ∃ s ∈ selectors,
      f ∈ ctx.attempted before (ctx.table.functions.filter s.picks) ∧
      ctx.attempted before (ctx.table.functions.filter s.picks) ⊆
        ctx.attempted done (ctx.selected selectors) := by
  induction selectors generalizing done with
  | nil => cases h
  | cons s rest ih =>
      rw [selected_cons, attempted_append_eq] at h ⊢
      rcases List.mem_append.1 h with h | h
      · exact ⟨done, s, List.mem_cons_self, h, List.subset_append_left ..⟩
      · obtain ⟨before, s', hs', hmem, hsub⟩ := ih h
        exact ⟨before, s', List.mem_cons_of_mem _ hs', hmem,
          List.Subset.trans hsub (List.subset_append_right ..)⟩

/-- **Where functions of one signature are picked alike**, what is attempted is what is selected,
up to the first of its signature that is wrappable. -/
theorem mem_attempted_iff (htell : ctx.table.SignaturesTell) :
    f ∈ ctx.attempted [] (ctx.selected selectors) ↔
      f ∈ ctx.selected selectors ∧ ctx.IsForemost f := by
  constructor
  · intro h
    obtain ⟨before, s, -, hmem, -⟩ := exists_selector_of_mem_attempted h
    exact ⟨(of_mem_attempted h).1, isForemost_of_mem_attempted htell hmem⟩
  · rintro ⟨hf, hforemost⟩
    have hturn : f ∈ ctx.attempted [] (ctx.selected selectors) ∨ f.signature ∈ ([] : List String) ∨
        ∃ e ∈ ctx.attempted [] (ctx.selected selectors),
          ctx.isWrappable e = true ∧ e.signature = f.signature := mem_attempted_or_done hf
    rcases hturn with h | h | ⟨e, he, hwrappable, hsame⟩
    · exact h
    · cases h
    -- `e` is wrappable, so it comes after `f`, and is attempted under a selector that picks `f`
    obtain ⟨before, s, hs, hmem, hsub⟩ := exists_selector_of_mem_attempted he
    obtain ⟨hetable, hepicked⟩ := List.mem_filter.1 (of_mem_attempted hmem).1
    have hftable := (mem_selected_iff.1 hf).1
    have hpicked : s.picks f = true := (htell e hetable f hftable hsame s) ▸ hepicked
    obtain ⟨first, last, hsplit⟩ := List.append_of_mem hftable
    have hlater : e ∉ first := fun hfirst => by
      rw [hforemost first last hsplit e hfirst hsame] at hwrappable
      cases hwrappable
    rw [filter_functions_split hsplit hpicked] at hmem hsub
    exact hsub (mem_attempted_of_later hmem
      (fun hfirst => hlater (List.mem_filter.1 hfirst).1) hsame)

/-! ### Success -/

/-- Wrapping the function finds every verdict that it asks for. -/
structure Judges (ctx : Context) (f : FunctionRecord) : Prop where
  returns : Succeeds f.returnType
  calls : ∀ arity ∈ arities f.args, Succeeds (ctx.checkFunction f arity.args)

theorem succeeds_wrapArity_iff {returns : TypeRef} {usesLoaded : Bool} {arity : Arity} :
    Succeeds (ctx.wrapArity f returns usesLoaded w arity) ↔
      Succeeds (ctx.checkFunction f arity.args) := by
  refine succeeds_bind_iff fun verdict => ?_
  cases verdict with
  | rejected => exact succeeds_ok _
  | accepted => dsimp only; split <;> exact succeeds_ok _

/-- A function is wrapped unless its signature is new and a verdict on it is missing. -/
theorem succeeds_wrapFunction_iff : Succeeds (ctx.wrapFunction w f) ↔
    (f.signature ∉ w.done → ctx.Judges f) := by
  rw [wrapFunction]
  split
  · next hdone =>
    have hdone : f.signature ∈ w.done := List.contains_iff_mem.1 hdone
    exact ⟨fun _ hnew => absurd hdone hnew, fun _ => succeeds_ok w⟩
  · next hnew =>
    have hnew : f.signature ∉ w.done := by simpa using hnew
    have hcalls {returns : TypeRef} {usesLoaded : Bool} :
        Succeeds ((arities f.args).foldlM (ctx.wrapArity f returns usesLoaded) w) ↔
          ∀ arity ∈ arities f.args, Succeeds (ctx.checkFunction f arity.args) :=
      succeeds_foldlM_iff (P := fun arity : Arity => Succeeds (ctx.checkFunction f arity.args))
        fun _ _ => succeeds_wrapArity_iff
    constructor
    · rintro ⟨_, h⟩ -
      obtain ⟨returns, hreturns, h⟩ := bind_eq_ok.1 h
      obtain ⟨next, hnext, -⟩ := bind_eq_ok.1 h
      exact ⟨⟨returns, hreturns⟩, hcalls.1 ⟨next, hnext⟩⟩
    · intro h
      refine (h hnew).returns.bind fun returns _ => ?_
      refine (hcalls.2 (h hnew).calls).bind fun next _ => ?_
      split <;> exact succeeds_ok _

/-- **A run succeeds where all that is attempted is judged.** -/
theorem succeeds_foldlM_attempted_iff {α : Type} {step : Wrapping → α → Except SymbolError Wrapping}
    (functionsOf : α → List FunctionRecord)
    (hstep : ∀ w a, Succeeds (step w a) ↔ ∀ f ∈ ctx.attempted w.done (functionsOf a), ctx.Judges f)
    (hdone : ∀ w a w', step w a = .ok w' → w'.done = ctx.doneAfter w.done (functionsOf a)) :
    ∀ (as : List α) (w : Wrapping), Succeeds (as.foldlM step w) ↔
      ∀ f ∈ ctx.attempted w.done (as.flatMap functionsOf), ctx.Judges f
  | [], w => ⟨fun _ _ h => (nomatch h), fun _ => succeeds_ok w⟩
  | a :: rest, w => by
      have ih := succeeds_foldlM_attempted_iff functionsOf hstep hdone rest
      rw [List.foldlM_cons, List.flatMap_cons, attempted_append_eq, List.forall_mem_append]
      constructor
      · rintro ⟨_, h⟩
        obtain ⟨next, hnext, h⟩ := bind_eq_ok.1 h
        rw [← hdone w a next hnext]
        exact ⟨(hstep w a).1 ⟨next, hnext⟩, (ih next).1 ⟨_, h⟩⟩
      · rintro ⟨hfirst, hrest⟩
        refine ((hstep w a).2 hfirst).bind fun next hnext => (ih next).2 ?_
        rwa [hdone w a next hnext]

theorem succeeds_foldlM_wrapFunction_iff : Succeeds (fs.foldlM ctx.wrapFunction w) ↔
    ∀ f ∈ ctx.attempted w.done fs, ctx.Judges f := by
  have hstep (w : Wrapping) (f : FunctionRecord) : Succeeds (ctx.wrapFunction w f) ↔
      ∀ g ∈ ctx.attempted w.done [f], ctx.Judges g := by
    rw [succeeds_wrapFunction_iff]
    by_cases hdone : f.signature ∈ w.done <;> simp [attempted, hdone]
  have h := succeeds_foldlM_attempted_iff (fun f => [f]) hstep
    (fun _ _ _ h => (wraps_wrapFunction h).done) fs w
  rwa [List.flatMap_singleton'] at h

theorem succeeds_selectors_iff : Succeeds (selectors.foldlM ctx.wrapSelected w) ↔
    ∀ f ∈ ctx.attempted w.done (ctx.selected selectors), ctx.Judges f := by
  refine succeeds_foldlM_attempted_iff _ (fun w s => ?_) (fun w s w' h => ?_) selectors w
  · rw [wrapSelected]
    split
    · next hnone =>
      rw [hnone]
      exact ⟨fun _ _ h => absurd h List.not_mem_nil, fun _ => succeeds_ok _⟩
    · exact succeeds_foldlM_wrapFunction_iff
  · have hdone := (wraps_wrapSelected h).done
    rwa [selected, List.flatMap_singleton] at hdone

/-! ### Selectors -/

/-- The context with these texts as its selectors. -/
def selecting (ctx : Context) (texts : List String) : Context :=
  { ctx with config := { ctx.config with load := { ctx.config.load with functions := texts } } }

theorem checkFunction_selecting (ctx : Context) (texts : List String) :
    (ctx.selecting texts).checkFunction = ctx.checkFunction := by
  have htypes : (ctx.selecting texts).checkTypes = ctx.checkTypes := by
    funext types
    induction types with
    | nil => rfl
    | cons type rest ih =>
        rw [checkTypes, checkTypes, ih]
        rfl
  funext f args
  rw [checkFunction, checkFunction]
  simp only [checkSignature, htypes]
  rfl

/-- A verdict on a function does not look at the selectors. -/
theorem isWrappable_selecting (ctx : Context) (texts : List String) :
    (ctx.selecting texts).isWrappable = ctx.isWrappable := by
  funext f
  have hcalls : (ctx.selecting texts).acceptsCall f = ctx.acceptsCall f := by
    funext arity
    simp only [acceptsCall, checkFunction_selecting]
  rw [isWrappable, isWrappable, hcalls]

theorem wrapSelected_selecting (ctx : Context) (texts : List String) :
    (ctx.selecting texts).wrapSelected = ctx.wrapSelected := by
  have harity : (ctx.selecting texts).wrapArity = ctx.wrapArity := by
    funext f returns usesLoaded w arity
    rw [wrapArity, wrapArity, checkFunction_selecting]
    rfl
  have hfunction : (ctx.selecting texts).wrapFunction = ctx.wrapFunction := by
    funext w f
    rw [wrapFunction, wrapFunction, harity]
    rfl
  funext w s
  rw [wrapSelected, wrapSelected, hfunction]
  rfl

theorem selectedBy_iff {texts : List String} (h : texts.mapM Selector.parse = .ok selectors) :
    SelectedBy texts f ↔ ∃ s ∈ selectors, s.picks f = true := by
  have hpairs := mapM_eq_ok_iff.1 h
  constructor
  · rintro ⟨text, htext, s, hparse, hpicked⟩
    obtain ⟨s', hs', hparse'⟩ := exists_partner hpairs htext
    cases hparse.symm.trans hparse'
    exact ⟨s, hs', hpicked⟩
  · rintro ⟨s, hs, hpicked⟩
    obtain ⟨text, htext, hparse⟩ := exists_partner_left hpairs hs
    exact ⟨text, htext, s, hparse, hpicked⟩

theorem mem_selected_iff_selectedBy {texts : List String}
    (h : texts.mapM Selector.parse = .ok selectors) :
    f ∈ ctx.selected selectors ↔ f ∈ ctx.table.functions ∧ SelectedBy texts f := by
  rw [mem_selected_iff, selectedBy_iff h]

theorem wrapFunctions_eq_ok_iff {counter : Nat} : ctx.wrapFunctions counter = .ok w ↔
    ∃ selectors, ctx.config.load.functions.mapM Selector.parse = .ok selectors ∧
      selectors.foldlM ctx.wrapSelected { counter } = .ok w := by
  rw [wrapFunctions]
  split
  · next hselectors =>
    constructor
    · intro h
      cases h
    · rintro ⟨_, h, -⟩
      cases hselectors.symm.trans h
  · next selectors hselectors =>
    rw [trust_eq_ok_iff]
    constructor
    · exact fun h => ⟨selectors, hselectors, h⟩
    · rintro ⟨_, h, hrun⟩
      cases hselectors.symm.trans h
      exact hrun

/-- **The signatures that a run has done.** -/
theorem mem_done_iff {counter : Nat} {signature : String} (h : ctx.wrapFunctions counter = .ok w) :
    signature ∈ w.done ↔ ∃ f ∈ ctx.table.functions, f.signature = signature ∧
      SelectedBy ctx.config.load.functions f ∧ ctx.isWrappable f = true := by
  obtain ⟨selectors, hselectors, hrun⟩ := wrapFunctions_eq_ok_iff.1 h
  have hdone : w.done = ctx.doneAfter [] (ctx.selected selectors) := (wraps_selectors hrun).done
  rw [hdone, mem_doneAfter_iff]
  constructor
  · rintro (h | ⟨f, hf, hsignature, hwrappable⟩)
    · cases h
    · obtain ⟨hf, hselected⟩ := (mem_selected_iff_selectedBy hselectors).1 hf
      exact ⟨f, hf, hsignature, hselected, hwrappable⟩
  · rintro ⟨f, hf, hsignature, hselected, hwrappable⟩
    exact .inr ⟨f, (mem_selected_iff_selectedBy hselectors).2 ⟨hf, hselected⟩, hsignature,
      hwrappable⟩

/-! ### Groups of wrappers -/

/-- The wrappers of all accepted arities of a function, longest first. -/
structure WrapsAccepted (ctx : Context) (f : FunctionRecord) (group : List FunctionWrapper) :
    Prop where
  wrappers : List.Forall₂ (ctx.IsWrapperFor f) ((arities f.args).filter (ctx.acceptsCall f)) group
  decreasing : (group.map FunctionWrapper.arity).Pairwise (· > ·)

theorem FunctionEntries.wrapsAccepted {group : List FunctionWrapper}
    (h : ctx.FunctionEntries f group) : ctx.WrapsAccepted f group where
  wrappers := h.wrappers
  decreasing := by
    rw [h.counts]
    exact (h.offered.expands _ (endsInDefaults_trailingDefaults f.args)).decreasing

/-- A function that is not wrappable has no wrappers. -/
theorem FunctionEntries.eq_nil {group : List FunctionWrapper} (h : ctx.FunctionEntries f group)
    (hnone : ctx.isWrappable f = false) : group = [] := by
  have hfilter : (arities f.args).filter (ctx.acceptsCall f) = [] :=
    List.filter_eq_nil_iff.2 fun arity harity haccepted =>
      Bool.false_ne_true (hnone.symm.trans (List.any_eq_true.2 ⟨arity, harity, haccepted⟩))
  have hwrappers := h.wrappers
  rw [hfilter] at hwrappers
  exact List.forall₂_nil_left_iff.1 hwrappers

/-- **The wrappers of a run come in groups**, one for each signature that is done, in order. -/
theorem exists_groups {counter : Nat} (h : ctx.wrapFunctions counter = .ok w) :
    ∃ fs groups, w.done = fs.map FunctionRecord.signature ∧
      (∀ f ∈ fs, f ∈ ctx.table.functions ∧ SelectedBy ctx.config.load.functions f) ∧
      w.wrappers = groups.flatten ∧ List.Forall₂ ctx.WrapsAccepted fs groups := by
  obtain ⟨selectors, hselectors, hblocks⟩ := wrapsBlocks_wrapFunctions h
  obtain ⟨blocks, hwrappers, hentries⟩ := hblocks.blocks
  obtain ⟨groups, hflatten, hgroups⟩ :=
    pairing_filter_flatten (p := ctx.isWrappable) hentries fun _ _ => FunctionEntries.eq_nil
  refine ⟨_, groups, hblocks.done, fun f hf => ?_, hwrappers.trans hflatten.symm,
    hgroups.imp fun _ _ => FunctionEntries.wrapsAccepted⟩
  have hselected := (of_mem_attempted (List.mem_filter.1 hf).1).1
  exact (mem_selected_iff_selectedBy hselectors).1 hselected

/-- **Functions are selected exactly.**  A run does no signature twice, and does those of the
functions that are selected and have an accepted arity.  Its wrappers come in groups, one for each
signature in order: all accepted arities of one selected function, longest first.  Only what is
selected matters: a run under any other selectors that pick the same functions, as when selectors
change places, are repeated, or are added to others that pick what they do, has the same signatures
done; and there is such a run, where functions of one signature are picked alike. -/
theorem selected_exactly {counter : Nat} (h : ctx.wrapFunctions counter = .ok w) :
    w.done.Nodup ∧
    (∀ signature, signature ∈ w.done ↔ ∃ f ∈ ctx.table.functions, f.signature = signature ∧
      SelectedBy ctx.config.load.functions f ∧ ctx.isWrappable f = true) ∧
    (∃ fs groups, w.done = fs.map FunctionRecord.signature ∧
      (∀ f ∈ fs, f ∈ ctx.table.functions ∧ SelectedBy ctx.config.load.functions f) ∧
      w.wrappers = groups.flatten ∧ List.Forall₂ ctx.WrapsAccepted fs groups) ∧
    ∀ texts, (∀ f ∈ ctx.table.functions,
        SelectedBy texts f ↔ SelectedBy ctx.config.load.functions f) →
      (∀ counter' w', (ctx.selecting texts).wrapFunctions counter' = .ok w' →
        ∀ signature, signature ∈ w'.done ↔ signature ∈ w.done) ∧
      (ctx.table.SignaturesTell → (∀ text ∈ texts, Succeeds (Selector.parse text)) →
        ∀ counter', Succeeds ((ctx.selecting texts).wrapFunctions counter')) := by
  obtain ⟨selectors, hselectors, hrun⟩ := wrapFunctions_eq_ok_iff.1 h
  have hdone : w.done = ctx.doneAfter [] (ctx.selected selectors) := (wraps_selectors hrun).done
  refine ⟨hdone ▸ nodup_doneAfter .nil, fun _ => mem_done_iff h, exists_groups h, ?_⟩
  intro texts hsame
  constructor
  · intro counter' w' h' signature
    rw [mem_done_iff h, mem_done_iff h', isWrappable_selecting]
    refine exists_congr fun f => and_congr_right fun hf => and_congr_right fun _ => ?_
    exact and_congr_left fun _ => hsame f hf
  · intro htell htexts counter'
    obtain ⟨others, hothers⟩ := succeeds_mapM htexts
    have hjudged := succeeds_selectors_iff.1 ⟨w, hrun⟩
    obtain ⟨w', hw'⟩ : Succeeds (others.foldlM ctx.wrapSelected { counter := counter' }) := by
      refine succeeds_selectors_iff.2 fun f hf => hjudged f ?_
      obtain ⟨hselected, hforemost⟩ := (mem_attempted_iff htell).1 hf
      obtain ⟨hmem, hselected⟩ := (mem_selected_iff_selectedBy hothers).1 hselected
      refine (mem_attempted_iff htell).2 ⟨?_, hforemost⟩
      exact (mem_selected_iff_selectedBy hselectors).2 ⟨hmem, (hsame f hmem).1 hselected⟩
    exact ⟨w', wrapFunctions_eq_ok_iff.2 ⟨others, hothers, by rwa [wrapSelected_selecting]⟩⟩

/-! ### Overlapping selectors -/

instance (texts : List String) (f : FunctionRecord) : Decidable (SelectedBy texts f) :=
  decidable_of_iff (∃ text ∈ texts, (Selector.parse text).toOption.any (·.picks f) = true) <| by
    simp only [SelectedBy, Option.any_eq_true, toOption_eq_some]

/-- Takes one or two numbers. -/
def areaFunction : FunctionRecord where
  id := ⟨"_1"⟩
  name := "area"
  returns := some (.named "int")
  args := [{ type := .named "int" }, { type := .named "int", hasDefault := true }]

/-- A second record of the same signature. -/
def areaAgain : FunctionRecord where
  id := ⟨"_2"⟩
  name := "area"
  returns := some (.named "int")
  args := [{ type := .named "int" }, { type := .named "int" }]

/-- Takes a pointer to a pointer, which may be left out. -/
def probeFunction : FunctionRecord where
  id := ⟨"_3"⟩
  name := "probe"
  returns := some (.named "int")
  args := [{ type := { TypeRef.named "int" with pointerDepth := 2 }, hasDefault := true }]

/-- Is not selected. -/
def resetFunction : FunctionRecord where
  id := ⟨"_4"⟩
  name := "reset"
  returns := some (.named "void")

def areaTable : SymbolTable where
  records := [.ofFunction areaFunction, .ofFunction areaAgain, .ofFunction probeFunction,
    .ofFunction resetFunction]
  distinct := by decide

def areaContext : Context :=
  new areaTable { load := { functions := ["probe", "area(int, int)", "area"] } }

theorem areaTable_signaturesTell : areaTable.SignaturesTell :=
  SymbolTable.signaturesTell_of_types (by decide +kernel)

theorem selected_exactly_area : ∃ w w', areaContext.wrapFunctions 0 = .ok w ∧
    (areaContext.selecting ["area", "probe", "area", "area(int,int)", "probe"]).wrapFunctions 0 =
      .ok w' ∧
    w.done = ["probe(int**)", "area(int, int)"] ∧
    w.wrappers.map (fun x => (x.target, x.arity)) = [("probe", 0), ("area", 2), ("area", 1)] ∧
    w.done.Nodup ∧
    (∃ fs groups, w.done = fs.map FunctionRecord.signature ∧ w.wrappers = groups.flatten ∧
      List.Forall₂ areaContext.WrapsAccepted fs groups) ∧
    ∀ signature, signature ∈ w'.done ↔ signature ∈ w.done := by
  have hrun : (areaContext.wrapFunctions 0).map (fun w =>
      (w.done, w.wrappers.map fun x => (x.target, x.arity))) =
      .ok (["probe(int**)", "area(int, int)"], [("probe", 0), ("area", 2), ("area", 1)]) :=
    toOption_eq_some.1 (by decide +kernel)
  obtain ⟨w, hw, hanswers⟩ := map_eq_ok.1 hrun
  obtain ⟨hdone, hwrappers⟩ := Prod.mk.inj hanswers
  obtain ⟨hnodup, -, ⟨fs, groups, hfs, -, hgroups⟩, hothers⟩ := selected_exactly hw
  obtain ⟨hsame, hsucceeds⟩ := hothers ["area", "probe", "area", "area(int,int)", "probe"]
    (by decide +kernel)
  obtain ⟨w', hw'⟩ := hsucceeds areaTable_signaturesTell (by decide +kernel) 0
  exact ⟨w, w', hw, hw', hdone, hwrappers, hnodup, ⟨fs, groups, hfs, hgroups⟩, hsame 0 w' hw'⟩

end Context

end LoadBridge
