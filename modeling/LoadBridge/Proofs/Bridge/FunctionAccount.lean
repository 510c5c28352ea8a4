import LoadBridge.Bridge.Function
import LoadBridge.Proofs.Bridge.Plan
import LoadBridge.Proofs.Outcome

/-!
# Bridge — Wrapping accounts for all that is selected

A selected function is attempted unless its signature is done when its turn comes
(`Context.attempted`).  Of a function that is attempted, every arity has a verdict: an accepted one
gets a wrapper, a rejected one a notice.  A selector that picks nothing leaves a notice.  These are
all the wrappers and notices that wrapping gives (`Context.wraps_wrapFunctions`).
-/

namespace LoadBridge

/-- The function that a wrapper stands for, and the number of its arguments. -/
def FunctionWrapper.call (w : FunctionWrapper) : String × Nat := (w.target, w.arity)

/-- The notice of a selector that picks nothing. -/
def Selector.notice (s : Selector) : Notice :=
  ⟨.functionNotLoadable, s.display, Rejection.notFound.text⟩

namespace Context

/-- Whether an arity of a function is accepted. -/
def acceptsCall (ctx : Context) (f : FunctionRecord) (arity : Arity) : Bool :=
  match ctx.checkFunction f arity.args with
  | .ok .accepted => true
  | _ => false

/-- The notice of an arity that is rejected. -/
def refusal? (ctx : Context) (f : FunctionRecord) (arity : Arity) : Option Notice :=
  match ctx.checkFunction f arity.args with
  | .ok (.rejected reason) =>
    some ⟨.functionNotLoadable, describeCall f.qualifiedName arity.args, reason.text⟩
  | _ => none

/-- The arities of a function that are accepted, by their numbers of arguments. -/
def acceptedCalls (ctx : Context) (f : FunctionRecord) : List (String × Nat) :=
  ((arities f.args).filter (ctx.acceptsCall f)).map fun arity =>
    (f.qualifiedName, arity.args.length)

/-- The notices of the arities of a function that are rejected. -/
def refusals (ctx : Context) (f : FunctionRecord) : List Notice :=
  (arities f.args).filterMap (ctx.refusal? f)

/-- Whether a function is done once it is attempted: an arity of it is accepted. -/
def isWrappable (ctx : Context) (f : FunctionRecord) : Bool :=
  (arities f.args).any (ctx.acceptsCall f)

/-- The functions that are attempted, of those that are selected in this order: all but the ones
whose signature is done when their turn comes. -/
def attempted (ctx : Context) (done : List String) : List FunctionRecord → List FunctionRecord
  | [] => []
  | f :: rest =>
    if done.contains f.signature then ctx.attempted done rest
    else
      f :: ctx.attempted (if ctx.isWrappable f then done ++ [f.signature] else done) rest

/-- The functions that selectors pick, in order. -/
def selected (ctx : Context) (selectors : List Selector) : List FunctionRecord :=
  selectors.flatMap fun s => ctx.table.functions.filter s.picks

/-- Whether a selector picks no function. -/
def picksNone (ctx : Context) (s : Selector) : Bool := (ctx.table.functions.filter s.picks).isEmpty

/-- What wrapping `fs`, under selectors of which `missing` pick nothing, makes of `w`. -/
structure Wraps (ctx : Context) (fs : List FunctionRecord) (missing : List Selector)
    (w w' : Wrapping) : Prop where
  wrappers : w'.wrappers.map FunctionWrapper.call =
    w.wrappers.map FunctionWrapper.call ++ (ctx.attempted w.done fs).flatMap ctx.acceptedCalls
  notices : w'.notices.Perm (w.notices ++
    (missing.map Selector.notice ++ (ctx.attempted w.done fs).flatMap ctx.refusals))
  done : w'.done = w.done ++
    ((ctx.attempted w.done fs).filter ctx.isWrappable).map FunctionRecord.signature
  /-- Every arity that is attempted has a verdict. -/
  verdicts : ∀ f ∈ ctx.attempted w.done fs, ∀ arity ∈ arities f.args,
    ctx.acceptsCall f arity = true ∨ ∃ n, ctx.refusal? f arity = some n

variable {ctx : Context} {f : FunctionRecord} {fs gs : List FunctionRecord}
  {missing others : List Selector} {w w₁ w' : Wrapping}

/-! ### What is attempted -/

theorem attempted_append (ctx : Context) (done : List String) (fs gs : List FunctionRecord) :
    ctx.attempted done (fs ++ gs) = ctx.attempted done fs ++
      ctx.attempted (done ++ ((ctx.attempted done fs).filter ctx.isWrappable).map
        FunctionRecord.signature) gs := by
  induction fs generalizing done with
  | nil => simp [attempted]
  | cons f rest ih =>
      simp only [List.cons_append, attempted]
      split
      · exact ih done
      · rw [ih]
        split
        · next hwrappable => simp [hwrappable]
        · next hwrappable => simp [hwrappable]

/-- A selected function is attempted, or one of its signature is done. -/
theorem mem_attempted_or_done {done : List String} (hf : f ∈ fs) :
    f ∈ ctx.attempted done fs ∨ f.signature ∈ done ∨
      ∃ e ∈ ctx.attempted done fs, ctx.isWrappable e = true ∧ e.signature = f.signature := by
  induction fs generalizing done with
  | nil => cases hf
  | cons g rest ih =>
      rw [attempted]
      split
      · next hdone =>
        rcases List.mem_cons.1 hf with rfl | hf
        · exact .inr (.inl (List.contains_iff_mem.1 hdone))
        · exact ih hf
      · rcases List.mem_cons.1 hf with rfl | hf
        · exact .inl List.mem_cons_self
        rcases ih hf with hmem | hdone | ⟨e, he, hwrappable, hsame⟩
        · exact .inl (List.mem_cons_of_mem _ hmem)
        -- it may be `g` that has brought the signature in
        · split at hdone
          · next hwrappable =>
            rcases List.mem_append.1 hdone with hdone | hdone
            · exact .inr (.inl hdone)
            · have hsame := (List.mem_singleton.1 hdone).symm
              exact .inr (.inr ⟨g, List.mem_cons_self, hwrappable, hsame⟩)
          · exact .inr (.inl hdone)
        · exact .inr (.inr ⟨e, List.mem_cons_of_mem _ he, hwrappable, hsame⟩)

/-! ### Steps -/

theorem Wraps.refl (ctx : Context) (w : Wrapping) : ctx.Wraps [] [] w w where
  wrappers := by simp [attempted]
  notices := by simp [attempted]
  done := by simp [attempted]
  verdicts := by simp [attempted]

theorem Wraps.trans (h : ctx.Wraps fs missing w w₁) (h' : ctx.Wraps gs others w₁ w') :
    ctx.Wraps (fs ++ gs) (missing ++ others) w w' := by
  have happend := attempted_append ctx w.done fs gs
  rw [← h.done] at happend
  constructor
  case wrappers => rw [h'.wrappers, h.wrappers, happend, List.flatMap_append, List.append_assoc]
  case notices =>
    refine h'.notices.trans ((h.notices.append_right _).trans ?_)
    rw [happend, List.flatMap_append, List.map_append]
    simp only [List.append_assoc]
    -- the later selectors change places with the earlier functions
    refine .append_left _ (.append_left _ ?_)
    rw [← List.append_assoc, ← List.append_assoc]
    exact List.perm_append_comm.append_right _
  case done =>
    rw [h'.done, h.done, happend, List.filter_append, List.map_append, List.append_assoc, ← h.done]
  case verdicts =>
    intro f hf
    rw [happend] at hf
    rcases List.mem_append.1 hf with hf | hf
    · exact h.verdicts f hf
    · exact h'.verdicts f hf

theorem Wraps.notice_mem_of_mem_missing {s : Selector} (h : ctx.Wraps fs missing w w')
    (hs : s ∈ missing) : s.notice ∈ w'.notices :=
  h.notices.mem_iff.2 (List.mem_append_right _
    (List.mem_append_left _ (List.mem_map_of_mem hs)))

theorem subject_of_refusal? {arity : Arity} {n : Notice} (h : ctx.refusal? f arity = some n) :
    n.subject = describeCall f.qualifiedName arity.args := by
  rw [refusal?] at h
  split at h <;> cases h
  rfl

/-- **Every arity that is attempted gets a wrapper or leaves a notice.** -/
theorem Wraps.wrapper_or_notice {arity : Arity} (h : ctx.Wraps fs missing w w')
    (hf : f ∈ ctx.attempted w.done fs) (harity : arity ∈ arities f.args) :
    (∃ x ∈ w'.wrappers, x.target = f.qualifiedName ∧ x.arity = arity.args.length) ∨
      ∃ n ∈ w'.notices, n.subject = describeCall f.qualifiedName arity.args := by
  rcases h.verdicts f hf arity harity with haccepted | ⟨n, hrefused⟩
  · have hcall : (f.qualifiedName, arity.args.length) ∈ w'.wrappers.map FunctionWrapper.call := by
      rw [h.wrappers]
      refine List.mem_append_right _ (List.mem_flatMap.2 ⟨f, hf, List.mem_map.2 ⟨arity, ?_, rfl⟩⟩)
      exact List.mem_filter.2 ⟨harity, haccepted⟩
    obtain ⟨x, hx, heq⟩ := List.mem_map.1 hcall
    obtain ⟨htarget, hcount⟩ := Prod.mk.inj heq
    exact .inl ⟨x, hx, htarget, hcount⟩
  · have hmem : n ∈ (ctx.attempted w.done fs).flatMap ctx.refusals :=
      List.mem_flatMap.2 ⟨f, hf, List.mem_filterMap.2 ⟨arity, harity, hrefused⟩⟩
    refine .inr ⟨n, ?_, subject_of_refusal? hrefused⟩
    exact h.notices.mem_iff.2 (List.mem_append_right _ (List.mem_append_right _ hmem))

/-- **A selected function is attempted, or one of its signature is done.** -/
theorem Wraps.attempted_or_done (h : ctx.Wraps fs missing w w') (hf : f ∈ fs) :
    f ∈ ctx.attempted w.done fs ∨ f.signature ∈ w.done ∨
      ∃ e ∈ ctx.attempted w.done fs, e.signature = f.signature ∧ f.signature ∈ w'.done := by
  rcases mem_attempted_or_done hf with hmem | hdone | ⟨e, he, hwrappable, hsame⟩
  · exact .inl hmem
  · exact .inr (.inl hdone)
  · refine .inr (.inr ⟨e, he, hsame, ?_⟩)
    rw [h.done, ← hsame]
    exact List.mem_append_right _ (List.mem_map_of_mem (List.mem_filter.2 ⟨he, hwrappable⟩))

/-! ### Arities -/

/-- What wrapping the arities `as` of `f` makes of `w`. -/
structure WrapsArities (ctx : Context) (f : FunctionRecord) (as : List Arity)
    (w w' : Wrapping) : Prop where
  wrappers : w'.wrappers.map FunctionWrapper.call = w.wrappers.map FunctionWrapper.call ++
    (as.filter (ctx.acceptsCall f)).map fun arity => (f.qualifiedName, arity.args.length)
  notices : w'.notices = w.notices ++ as.filterMap (ctx.refusal? f)
  done : w'.done = w.done
  verdicts : ∀ arity ∈ as, ctx.acceptsCall f arity = true ∨ ∃ n, ctx.refusal? f arity = some n

theorem wrapsArities_nil (ctx : Context) (f : FunctionRecord) (w : Wrapping) :
    ctx.WrapsArities f [] w w where
  wrappers := by simp
  notices := by simp
  done := rfl
  verdicts := by simp

/-- An arity that is accepted gets a wrapper, one that is rejected a notice. -/
theorem wrapsArities_wrapArity {returns : TypeRef} {usesLoaded : Bool} {arity : Arity}
    (h : ctx.wrapArity f returns usesLoaded w arity = .ok w') :
    ctx.WrapsArities f [arity] w w' := by
  obtain ⟨verdict, hverdict, h⟩ := bind_eq_ok.1 h
  cases verdict with
  | rejected reason =>
      obtain rfl := Except.ok.inj h
      constructor <;> simp [acceptsCall, refusal?, hverdict]
  | accepted =>
      dsimp only at h
      split at h <;>
        (obtain rfl := Except.ok.inj h
         constructor <;> simp [acceptsCall, refusal?, hverdict, FunctionWrapper.call, passthrough,
           exportedFunction])

theorem WrapsArities.cons {arity : Arity} {rest : List Arity} (h : ctx.WrapsArities f [arity] w w₁)
    (h' : ctx.WrapsArities f rest w₁ w') : ctx.WrapsArities f (arity :: rest) w w' := by
  constructor
  case wrappers =>
    rw [h'.wrappers, h.wrappers, ← List.singleton_append (l := rest), List.filter_append,
      List.map_append, List.append_assoc]
  case notices =>
    rw [h'.notices, h.notices, ← List.singleton_append (l := rest), List.filterMap_append,
      List.append_assoc]
  case done => rw [h'.done, h.done]
  case verdicts =>
    intro a ha
    rcases List.mem_cons.1 ha with rfl | ha
    · exact h.verdicts _ List.mem_cons_self
    · exact h'.verdicts a ha

theorem wrapsArities_foldlM {returns : TypeRef} {usesLoaded : Bool} {as : List Arity}
    (h : as.foldlM (ctx.wrapArity f returns usesLoaded) w = .ok w') :
    ctx.WrapsArities f as w w' :=
  foldlM_composes (wrapsArities_nil ctx f)
    (fun _ _ _ _ _ hstep hrest => (wrapsArities_wrapArity hstep).cons hrest) as w w' h

/-- A function is wrappable when its arities give wrappers. -/
theorem WrapsArities.more_wrappers_iff (h : ctx.WrapsArities f (arities f.args) w w') :
    w'.wrappers.length > w.wrappers.length ↔ ctx.isWrappable f = true := by
  have hlength := congrArg List.length h.wrappers
  simp only [List.length_map, List.length_append] at hlength
  rw [hlength, isWrappable, List.any_eq_true, gt_iff_lt, Nat.lt_add_right_iff_pos,
    List.length_pos_iff_exists_mem]
  simp only [List.mem_filter]

/-- A function on the ditch list is rejected in every arity. -/
theorem refusals_of_isDitched (h : ctx.isDitched f.qualifiedName = true) :
    ctx.acceptedCalls f = [] ∧ ctx.refusals f = (arities f.args).map fun arity =>
      ⟨.functionNotLoadable, describeCall f.qualifiedName arity.args, Rejection.excluded.text⟩ := by
  have hverdict : ∀ args, ctx.checkFunction f args = .ok (.rejected .excluded) := fun _ => if_pos h
  constructor
  · simp [acceptedCalls, acceptsCall, hverdict]
  · rw [refusals, ← List.filterMap_eq_map]
    refine List.filterMap_congr fun arity _ => ?_
    rw [refusal?, hverdict]
    rfl

/-! ### Functions -/

/-- **A function is attempted unless its signature is done**, and done once a wrapper is made. -/
theorem wraps_wrapFunction (h : ctx.wrapFunction w f = .ok w') : ctx.Wraps [f] [] w w' := by
  rw [wrapFunction] at h
  split at h
  · next hdone =>
    obtain rfl := Except.ok.inj h
    have hnone : ctx.attempted w.done [f] = [] := by rw [attempted, if_pos hdone, attempted]
    constructor <;> simp [hnone]
  · next hdone =>
    obtain ⟨returns, -, h⟩ := bind_eq_ok.1 h
    obtain ⟨next, hnext, h⟩ := bind_eq_ok.1 h
    have harities := wrapsArities_foldlM hnext
    have hsome : ctx.attempted w.done [f] = [f] := by rw [attempted, if_neg hdone, attempted]
    -- what is noted as done is the same whether or not a wrapper was made
    have hwrappable := harities.more_wrappers_iff
    have hnext' : w'.wrappers = next.wrappers ∧ w'.notices = next.notices ∧
        w'.done = next.done ++ ([f].filter ctx.isWrappable).map FunctionRecord.signature := by
      split at h
      · next hmore =>
        obtain rfl := Except.ok.inj h
        simp [hwrappable.1 hmore]
      · next hless =>
        obtain rfl := Except.ok.inj h
        simp [mt hwrappable.2 hless]
    obtain ⟨hwrappers, hnotices, hdone'⟩ := hnext'
    constructor
    case wrappers => simpa [hsome, hwrappers, acceptedCalls] using harities.wrappers
    case notices => simp [hsome, hnotices, harities.notices, refusals]
    case done => rw [hsome, hdone', harities.done]
    case verdicts => simpa [hsome] using harities.verdicts

theorem Wraps.of_foldlM (h : fs.foldlM ctx.wrapFunction w = .ok w') : ctx.Wraps fs [] w w' :=
  foldlM_composes (R := fun fs => ctx.Wraps fs []) (Wraps.refl ctx)
    (fun _ _ _ _ _ hstep hrest => (wraps_wrapFunction hstep).trans hrest) fs w w' h

/-- **A selector picks functions or leaves a notice.** -/
theorem wraps_wrapSelected {s : Selector} (h : ctx.wrapSelected w s = .ok w') :
    ctx.Wraps (ctx.selected [s]) ([s].filter ctx.picksNone) w w' := by
  have hselected : ctx.selected [s] = ctx.table.functions.filter s.picks := by simp [selected]
  rw [wrapSelected] at h
  rw [hselected]
  split at h
  · next hempty =>
    obtain rfl := Except.ok.inj h
    have hnone : ctx.picksNone s = true := List.isEmpty_iff.2 hempty
    constructor <;> simp [hempty, hnone, attempted, Selector.notice]
  · next hpicked =>
    have hsome : ctx.picksNone s = false := List.isEmpty_eq_false_iff.2 hpicked
    simpa [hsome] using Wraps.of_foldlM h

theorem wraps_selectors {selectors : List Selector}
    (h : selectors.foldlM ctx.wrapSelected w = .ok w') :
    ctx.Wraps (ctx.selected selectors) (selectors.filter ctx.picksNone) w w' := by
  refine foldlM_composes
    (R := fun ss => ctx.Wraps (ctx.selected ss) (ss.filter ctx.picksNone)) (Wraps.refl ctx)
    (fun s rest _ _ _ hstep hrest => ?_) selectors w w' h
  have hsplit := (wraps_wrapSelected hstep).trans hrest
  rwa [← List.filter_append, selected, selected, ← List.flatMap_append] at hsplit

/-- **Wrapping accounts for all that the selectors pick**, and for those that pick nothing. -/
theorem wraps_wrapFunctions {counter : Nat} (h : ctx.wrapFunctions counter = .ok w) :
    ∃ selectors, ctx.config.selectors = .ok selectors ∧
      ctx.Wraps (ctx.selected selectors) (selectors.filter ctx.picksNone) { counter } w := by
  rw [wrapFunctions] at h
  split at h
  · cases h
  · next selectors hselectors =>
    exact ⟨selectors, hselectors, wraps_selectors (trust_eq_ok_iff.1 h)⟩

end Context

end LoadBridge
