import LoadBridge.Proofs.Bridge.Emission
import LoadBridge.Proofs.Bridge.FunctionAccount
import LoadBridge.Proofs.Bridge.PlanAccount

/-!
# Bridge — Nothing is left out in silence

The notices of a run come from three sources that differ in kind: the load set, the classes
(`Generates.kind_of_mem_notices`) and the functions (`Wraps.kind_of_mem_notices`).  So the notices
of classes and of functions that are not loadable are those of the load set and of wrapping
(`noticesOf_classNotLoadable`, `noticesOf_functionNotLoadable`), and with the accounts of the plans
and of the functions, a run accounts for all that its configuration asks for
(`GenerationOutput.nothing_silent`).
-/

namespace LoadBridge

namespace Context

variable {ctx : Context} {c : ClassRecord} {output : ClassOutput} {n : Notice}

/-! ### Where notices come from -/

theorem kind_of_mem_loadNotices (h : n ∈ ctx.loadNotices) : n.kind = .classNotLoadable := by
  obtain ⟨name, -, hname⟩ := List.mem_filterMap.1 h
  split at hname <;> cases hname
  rfl

/-- A class leaves no notice of a class or function that is not loadable. -/
theorem Generates.kind_of_mem_notices (h : ctx.Generates c output) (hn : n ∈ output.notices) :
    n.kind ≠ .classNotLoadable ∧ n.kind ≠ .functionNotLoadable := by
  obtain ⟨counter, plan, hplan, rfl⟩ := h
  obtain ⟨callables, fields, htally⟩ := ClassPlan.exists_tally hplan
  have hn : n ∈ plan.notices ++ plan.hookNotices ++ plan.factoryNotices ++ plan.locationNotices :=
    hn
  simp only [List.mem_append] at hn
  rcases hn with ((hn | hn) | hn) | hn
  · rcases ClassPlan.kind_of_mem_notices htally hn with hkind | hkind | hkind <;> simp [hkind]
  · obtain ⟨reason, -, rfl⟩ := List.mem_map.1 hn
    exact ⟨nofun, nofun⟩
  · obtain ⟨reason, -, rfl⟩ := List.mem_map.1 hn
    exact ⟨nofun, nofun⟩
  · rw [ClassPlan.locationNotices] at hn
    split at hn
    · obtain rfl := List.mem_singleton.1 hn
      exact ⟨nofun, nofun⟩
    · cases hn

theorem Wraps.kind_of_mem_notices {fs : List FunctionRecord} {missing : List Selector}
    {w : Wrapping} {counter : Nat} (h : ctx.Wraps fs missing { counter } w) (hn : n ∈ w.notices) :
    n.kind = .functionNotLoadable := by
  rcases List.mem_append.1 (h.notices.mem_iff.1 hn) with hn | hn
  · cases hn
  rcases List.mem_append.1 hn with hn | hn
  · obtain ⟨s, -, rfl⟩ := List.mem_map.1 hn
    rfl
  · obtain ⟨f, -, hn⟩ := List.mem_flatMap.1 hn
    obtain ⟨arity, -, hn⟩ := List.mem_filterMap.1 hn
    rw [refusal?] at hn
    split at hn <;> cases hn
    rfl

end Context

namespace GenerationOutput

open Context

variable {table : SymbolTable} {config : Config} {g : GenerationOutput}

/-- **The functions of a run are accounted for.**  A selector picks a function or leaves a notice.
A function that is selected is attempted, or one of its signature is done.  Every arity that is
attempted gets a wrapper or leaves a notice, and there are no other wrappers and no other notices of
functions.  The ledger lists the signatures of the functions that got a wrapper. -/
structure AccountsFunctions (g : GenerationOutput) (ctx : Context) (selectors : List Selector) :
    Prop where
  eachSelector : ∀ s ∈ selectors, (∃ f ∈ ctx.table.functions, s.picks f = true) ∨
    hasNotice .functionNotLoadable s.display g.notices = true
  eachSelected : ∀ f ∈ ctx.selected selectors, f ∈ ctx.attempted [] (ctx.selected selectors) ∨
    ∃ e ∈ ctx.attempted [] (ctx.selected selectors), e.signature = f.signature ∧
      g.ledger.hasFunction f.signature = true
  eachArity : ∀ f ∈ ctx.attempted [] (ctx.selected selectors), ∀ arity ∈ arities f.args,
    (∃ w ∈ g.functions, w.target = f.qualifiedName ∧ w.arity = arity.args.length) ∨
      hasNotice .functionNotLoadable (describeCall f.qualifiedName arity.args) g.notices = true
  wrappers : g.functions.map FunctionWrapper.call =
    (ctx.attempted [] (ctx.selected selectors)).flatMap ctx.acceptedCalls
  notices : (noticesOf .functionNotLoadable g.notices).Perm
    ((selectors.filter ctx.picksNone).map Selector.notice ++
      (ctx.attempted [] (ctx.selected selectors)).flatMap ctx.refusals)
  done : g.ledger.functionsDone =
    ((ctx.attempted [] (ctx.selected selectors)).filter ctx.isWrappable).map
      FunctionRecord.signature

/-- The notices of a run are those of its load set, its classes and its functions. -/
theorem exists_wrapping (h : generate table config = .ok g) : ∃ counter wrapping,
    (ofRun table config).wrapFunctions counter = .ok wrapping ∧
      g.functions = wrapping.wrappers ∧ g.ledger.functionsDone = wrapping.done ∧
      g.notices = (new table config).loadNotices ++ g.classes.flatMap ClassOutput.notices ++
        wrapping.notices := by
  obtain ⟨-, classes, counter, wrapping, -, hwrapping, rfl⟩ := generate_eq_ok_iff.1 h
  exact ⟨counter, wrapping, hwrapping, rfl, rfl, rfl⟩

/-- What a plan leaves out is told by the run. -/
theorem sublist_notices (h : generate table config = .ok g) {ctx : Context} {counter : Nat}
    {c : ClassRecord} {plan : ClassPlan} (hmem : ctx.outputOf counter c plan ∈ g.classes) :
    plan.notices.Sublist g.notices := by
  obtain ⟨_, wrapping, -, -, -, hnotices⟩ := exists_wrapping h
  have hplan : plan.notices.Sublist (ctx.outputOf counter c plan).notices := by
    simp only [outputOf, List.append_assoc]
    exact List.sublist_append_left ..
  have hclasses : (ctx.outputOf counter c plan).notices.Sublist
      (g.classes.flatMap ClassOutput.notices) :=
    List.sublist_flatten_of_mem (List.mem_map_of_mem hmem)
  rw [hnotices]
  exact (hplan.trans hclasses).trans
    ((List.sublist_append_right ..).trans (List.sublist_append_left ..))

/-- The notices of a run, taken apart by kind. -/
theorem noticesOf_generate (h : generate table config = .ok g) :
    noticesOf .classNotLoadable g.notices = (new table config).loadNotices ∧
    ∃ selectors counter wrapping, config.selectors = .ok selectors ∧
      (ofRun table config).Wraps ((ofRun table config).selected selectors)
        (selectors.filter (ofRun table config).picksNone) { counter } wrapping ∧
      g.functions = wrapping.wrappers ∧ g.ledger.functionsDone = wrapping.done ∧
      noticesOf .functionNotLoadable g.notices = wrapping.notices := by
  have hclasses : ∀ n ∈ g.classes.flatMap ClassOutput.notices,
      n.kind ≠ .classNotLoadable ∧ n.kind ≠ .functionNotLoadable := by
    intro n hn
    obtain ⟨output, houtput, hn⟩ := List.mem_flatMap.1 hn
    obtain ⟨c, -, hgenerates⟩ := exists_partner_left (forall₂_classes h) houtput
    exact hgenerates.kind_of_mem_notices hn
  obtain ⟨counter, wrapping, hwrapping, hwrappers, hdone, hnotices⟩ := exists_wrapping h
  obtain ⟨selectors, hselectors, hwraps⟩ := wraps_wrapFunctions hwrapping
  have hload : ∀ n ∈ (new table config).loadNotices, n.kind = .classNotLoadable :=
    fun _ => kind_of_mem_loadNotices
  have hfunctions : ∀ n ∈ wrapping.notices, n.kind = .functionNotLoadable :=
    fun _ => hwraps.kind_of_mem_notices
  refine ⟨?_, selectors, counter, wrapping, hselectors, hwraps, hwrappers, hdone, ?_⟩
  · rw [hnotices, noticesOf_append, noticesOf_append, noticesOf_eq_self hload,
      noticesOf_eq_nil fun n hn => (hclasses n hn).1,
      noticesOf_eq_nil fun n hn => by simp [hfunctions n hn], List.append_nil, List.append_nil]
  · rw [hnotices, noticesOf_append, noticesOf_append, noticesOf_eq_self hfunctions,
      noticesOf_eq_nil fun n hn => (hclasses n hn).2,
      noticesOf_eq_nil fun n hn => by simp [hload n hn], List.nil_append, List.nil_append]

/-! ### Classes -/

/-- A name that is asked for leaves a notice when it is rejected. -/
theorem hasNotice_classNotLoadable_iff (h : generate table config = .ok g) {name : String}
    (hname : name ∈ config.requestedClasses) :
    hasNotice .classNotLoadable name g.notices = true ↔
      (new table config).checkClass name ≠ .accepted := by
  rw [hasNotice_iff, (noticesOf_generate h).1, loadNotices]
  constructor
  · rintro ⟨n, hn, rfl⟩ haccepted
    obtain ⟨other, -, hother⟩ := List.mem_filterMap.1 hn
    split at hother
    · cases hother
    · next hrejected =>
      cases hother
      cases hrejected.symm.trans haccepted
  · intro hrejected
    cases hverdict : (new table config).checkClass name with
    | accepted => exact absurd hverdict hrejected
    | rejected reason =>
        refine ⟨⟨.classNotLoadable, name, reason.text⟩, ?_, rfl⟩
        exact List.mem_filterMap.2 ⟨name, hname, by rw [hverdict]⟩

/-- A name that is asked for has a class when it is accepted. -/
theorem exists_class_iff (h : generate table config = .ok g) {name : String}
    (hname : name ∈ config.requestedClasses) :
    (∃ output ∈ g.classes, Name.key output.target = Name.key name) ↔
      (new table config).checkClass name = .accepted := by
  have hpairs := forall₂_classes h
  constructor
  · rintro ⟨output, houtput, hkey⟩
    obtain ⟨c, hc, hgenerates⟩ := exists_partner_left hpairs houtput
    rw [← checkClass_congr hkey, hgenerates.target]
    exact accepted_of_mem_loadSet (mem_loadSet_of_mem_runOrder hc)
  · intro haccepted
    obtain ⟨-, c, hfound, -, -⟩ := checkClass_eq_accepted_iff.1 haccepted
    have hload : c ∈ (new table config).loadSet :=
      IsRequested.mem_loadSet ⟨name, hname, haccepted, hfound⟩
    -- of several classes of one name only the first is generated
    obtain ⟨d, hd, hsame⟩ := exists_mem_runOrder hload
    obtain ⟨output, houtput, hgenerates⟩ := exists_partner hpairs hd
    refine ⟨output, houtput, ?_⟩
    rw [hgenerates.target, hsame, (SymbolTable.of_classNamed? hfound).2]

/-! ### Functions -/

theorem exists_accountsFunctions (h : generate table config = .ok g) :
    ∃ selectors, config.selectors = .ok selectors ∧
      g.AccountsFunctions (ofRun table config) selectors := by
  obtain ⟨-, selectors, counter, wrapping, hselectors, hwraps, hfunctions, hdone, hnotices⟩ :=
    noticesOf_generate h
  refine ⟨selectors, hselectors, ?_⟩
  constructor
  case eachSelector =>
    intro s hs
    cases hnone : (ofRun table config).picksNone s with
    | false =>
        obtain ⟨f, hf⟩ := List.isEmpty_eq_false_iff_exists_mem.1 hnone
        exact .inl ⟨f, List.mem_filter.1 hf⟩
    | true =>
        have hnotice := hwraps.notice_mem_of_mem_missing (List.mem_filter.2 ⟨hs, hnone⟩)
        exact .inr (hasNotice_iff.2 ⟨s.notice, hnotices ▸ hnotice, rfl⟩)
  case eachSelected =>
    intro f hf
    rcases hwraps.attempted_or_done hf with hmem | hnever | ⟨e, he, hsame, hfdone⟩
    · exact .inl hmem
    -- nothing is done when wrapping begins
    · cases hnever
    · exact .inr ⟨e, he, hsame, List.contains_iff_mem.2 (hdone ▸ hfdone)⟩
  case eachArity =>
    intro f hf arity harity
    rw [hfunctions, hasNotice_iff, hnotices]
    exact hwraps.wrapper_or_notice hf harity
  case wrappers => rw [hfunctions, hwraps.wrappers, List.map_nil, List.nil_append]
  case notices => simpa only [hnotices, List.nil_append] using hwraps.notices
  case done => rw [hdone, hwraps.done, List.nil_append]

/-- **Nothing is left out in silence.**  Of a run that succeeds: a name asked for leaves a notice
or has a class, and never both; the plan of every class accounts for what the class offers, and its
notices are among those of the run; and so are the functions accounted for. -/
theorem nothing_silent (h : generate table config = .ok g) :
    (∀ name ∈ config.requestedClasses, hasNotice .classNotLoadable name g.notices = true ↔
      ¬ ∃ output ∈ g.classes, Name.key output.target = Name.key name) ∧
    (∀ output ∈ g.classes, ∃ c plan counter own inherited,
      (ofRun table config).planClass c = .ok plan ∧
      output = (ofRun table config).outputOf counter c plan ∧
      plan.notices.Sublist g.notices ∧
      table.membersOf c = .ok own ∧ (ofRun table config).inheritedMembers c own = .ok inherited ∧
      plan.record = c ∧ plan.Accounts (ofRun table config) own inherited) ∧
    ∃ selectors, config.selectors = .ok selectors ∧
      g.AccountsFunctions (ofRun table config) selectors := by
  refine ⟨fun name hname => ?_, fun output houtput => ?_, exists_accountsFunctions h⟩
  · rw [hasNotice_classNotLoadable_iff h hname, exists_class_iff h hname]
  · obtain ⟨c, -, counter, plan, hplan, rfl⟩ := exists_partner_left (forall₂_classes h) houtput
    obtain ⟨own, inherited, hown, hinherited, hrecord, haccounts⟩ := ClassPlan.accounts hplan
    exact ⟨c, plan, counter, own, inherited, hplan, rfl, sublist_notices h houtput, hown,
      hinherited, hrecord, haccounts⟩

/-! ### A run in which everything is rejected -/

/-- The function that `rejectedTable` declares. -/
def rejectedFunction : FunctionRecord where
  id := ⟨"_6"⟩
  name := "f"
  returns := some (.named "int")

/-- The selectors of `rejectedConfig`. -/
def rejectedSelectors : List Selector := [⟨"f", none⟩, ⟨"g", none⟩]

theorem checkClass_rejectedTable :
    (new rejectedTable rejectedConfig).checkClass "S" = .accepted ∧
      (new rejectedTable rejectedConfig).checkClass "O" ≠ .accepted := by
  constructor
  · have hditched : rejectedConfig.isDitched "S" = false := by cbv
    have hfound : (rejectedTable.classNamed? "S").map
        (fun c => (c.isIncomplete, c.isTemplate)) = some (false, false) := by cbv
    obtain ⟨c, hc, hwhole⟩ := Option.map_eq_some_iff.1 hfound
    exact checkClass_eq_accepted_iff.2 ⟨hditched, c, hc, Prod.mk.inj hwhole⟩
  · intro haccepted
    obtain ⟨-, c, hc, hwhole, -⟩ := checkClass_eq_accepted_iff.1 haccepted
    have hfound : (rejectedTable.classNamed? "O").map ClassRecord.isIncomplete = some true := by cbv
    rw [show rejectedTable.classNamed? "O" = some c from hc, Option.map_some, hwhole] at hfound
    cases hfound

theorem attempted_rejectedTable (ctx : Context) (htable : ctx.table = rejectedTable) :
    ctx.attempted [] (ctx.selected rejectedSelectors) = [rejectedFunction] ∧
      rejectedSelectors.filter ctx.picksNone = [⟨"g", none⟩] := by
  have hdeclared : rejectedTable.functions = [rejectedFunction] := rfl
  have hpicked : Selector.picks ⟨"f", none⟩ rejectedFunction = true := by cbv
  have hnone : Selector.picks ⟨"g", none⟩ rejectedFunction = false := by cbv
  constructor
  · simp [attempted, selected, rejectedSelectors, htable, hdeclared, hpicked, hnone]
  · simp [rejectedSelectors, picksNone, htable, hdeclared, hpicked, hnone]

theorem nothing_silent_rejected : ∃ g, generate rejectedTable rejectedConfig = .ok g ∧
    hasNotice .classNotLoadable "S" g.notices = false ∧
    hasNotice .classNotLoadable "O" g.notices = true ∧
    g.functions = [] ∧ (noticesOf .functionNotLoadable g.notices).Perm
      [Selector.notice ⟨"g", none⟩, ⟨.functionNotLoadable, "f()", "explicitly excluded"⟩] := by
  have hvalid : rejectedConfig.validate = .ok () := by cbv
  obtain ⟨g, hg⟩ := succeeds_generate rejectedTable_wellFormed hvalid
  obtain ⟨hclasses, -, selectors, hselectors, hfunctions⟩ := nothing_silent hg
  have hrequested : rejectedConfig.requestedClasses = ["S", "O", "N"] := by cbv
  have hread : rejectedConfig.selectors = .ok rejectedSelectors := by cbv
  cases hselectors.symm.trans hread
  obtain ⟨hloaded, hincomplete⟩ := checkClass_rejectedTable
  obtain ⟨hattempted, hmissing⟩ :=
    attempted_rejectedTable (ofRun rejectedTable rejectedConfig) rfl
  have hditched : rejectedConfig.isDitched rejectedFunction.qualifiedName = true := by cbv
  obtain ⟨haccepted, hrefused⟩ := refusals_of_isDitched (f := rejectedFunction)
    (show (ofRun rejectedTable rejectedConfig).isDitched _ = true from hditched)
  have hcall : describeCall rejectedFunction.qualifiedName [] = "f()" := by cbv
  have hwrappers := hfunctions.wrappers
  have hnotices := hfunctions.notices
  rw [hattempted, List.flatMap_singleton] at hwrappers hnotices
  refine ⟨g, hg, ?_, ?_, ?_, ?_⟩
  · rw [← Bool.not_eq_true, hclasses "S" (by simp [hrequested]), not_not]
    exact (exists_class_iff hg (by simp [hrequested])).2 hloaded
  · exact (hclasses "O" (by simp [hrequested])).2 fun hclass =>
      hincomplete ((exists_class_iff hg (by simp [hrequested])).1 hclass)
  · exact List.map_eq_nil_iff.1 (hwrappers.trans haccepted)
  · rw [hmissing, hrefused] at hnotices
    rw [← hcall]
    exact hnotices

end GenerationOutput

end LoadBridge
