import LoadBridge.Proofs.Bridge.Alike
import LoadBridge.Proofs.Bridge.Totality
import LoadBridge.Proofs.Name.Respelling

/-!
# Bridge — The spelling of configured names

A configuration names classes to load, classes to know and things to skip, each in any spelling.
Two configurations that spell the same names (`Config.Respelt`) are alike, ask for the same classes
in the same order, and so register the same names.  Their runs agree (`generate_respelt`): both end
with one error, or both have one result, in which only the notices of classes that are not loaded
repeat the spelling they were asked for by.
-/

namespace LoadBridge

/-! ### Configurations -/

/-- Configurations that differ at most in how they spell names: those of the classes to load and of
the ditch list one by one, and those of known classes in any order and under any headers. -/
structure Config.Respelt (a b : Config) : Prop where
  classes : List.Forall₂ Name.Respelt a.load.classes b.load.classes
  ditch : List.Forall₂ Name.Respelt a.load.ditch b.load.ditch
  known : ∀ k ∈ a.knownClasses, ∃ l ∈ b.knownClasses, Name.Respelt k.1 l.1
  knownBack : ∀ l ∈ b.knownClasses, ∃ k ∈ a.knownClasses, Name.Respelt k.1 l.1
  rest : b =
    { a with
      load := { a.load with classes := b.load.classes, ditch := b.load.ditch }
      knownClasses := b.knownClasses }

/-- A name is among these if it is among others that are, one for one, the same names. -/
theorem any_same_congr {α β : Type} (nameOf : α → String) (nameOf' : β → String) {as : List α}
    {bs : List β} (h : ∀ a ∈ as, ∃ b ∈ bs, Name.Respelt (nameOf a) (nameOf' b))
    (hback : ∀ b ∈ bs, ∃ a ∈ as, Name.Respelt (nameOf a) (nameOf' b)) (name : String) :
    (as.any fun a => Name.same name (nameOf a)) = bs.any fun b => Name.same name (nameOf' b) := by
  rw [Bool.eq_iff_iff, List.any_eq_true, List.any_eq_true]
  constructor
  · rintro ⟨a, ha, hsame⟩
    obtain ⟨b, hb, hab⟩ := h a ha
    exact ⟨b, hb, Name.same_iff.2 ((Name.same_iff.1 hsame).trans hab.key_eq)⟩
  · rintro ⟨b, hb, hsame⟩
    obtain ⟨a, ha, hab⟩ := hback b hb
    exact ⟨a, ha, Name.same_iff.2 ((Name.same_iff.1 hsame).trans hab.key_eq.symm)⟩

namespace Config.Respelt

variable {a b : Config}

theorem alike (h : a.Respelt b) : a.Alike b := by
  have hditch : a.isDitched = b.isDitched := by
    funext name
    exact any_same_congr id id (fun _ => exists_partner h.ditch)
      (fun _ => exists_partner_left h.ditch) name
  have hknown : a.isKnownClass = b.isKnownClass := by
    funext name
    exact any_same_congr Prod.fst Prod.fst h.known h.knownBack name
  refine ⟨hditch, hknown, ?_, ?_, ?_, ?_, ?_⟩ <;> rw [h.rest]

/-- They ask for the same names, each in the spelling that comes first. -/
theorem requestedClasses (h : a.Respelt b) :
    List.Forall₂ (fun s t => Name.key s = Name.key t) a.requestedClasses b.requestedClasses := by
  have hkeys := h.classes.imp fun _ _ => Name.Respelt.key_eq
  refine pairing_eraseDupsBy (fun s t s' t' hst hst' => ?_) hkeys
  rw [Name.same, Name.same, hst, hst']

end Config.Respelt

/-! ### Load sets -/

namespace Context.Alike

variable {a b : Context}

/-- Contexts that are alike and ask for the same classes in one order load them in one order. -/
theorem loadSet (h : a.Alike b) (hrequested : a.requestedIds = b.requestedIds) :
    a.loadSet = b.loadSet := by
  have hdiscovered : a.discovered = b.discovered := by
    funext id
    rw [discovered, discovered, h.config.parentClasses, h.table]
  have haccepted : a.acceptedIds = b.acceptedIds := by
    simp only [acceptedIds, h.table, h.checkClass]
  simp only [Context.loadSet, loadSetIds, hdiscovered, hrequested, haccepted, h.table]

end Context.Alike

/-- The same notice, or two of one class that is not loaded, by different spellings of its name. -/
def Notice.Respelt (m n : Notice) : Prop :=
  m = n ∨ m.kind = .classNotLoadable ∧ n = { m with subject := n.subject } ∧
    Name.key m.subject = Name.key n.subject

namespace Config.Respelt

open Context

variable {a b : Config}

theorem loadSet (h : a.Respelt b) (table : SymbolTable) :
    (new table a).loadSet = (new table b).loadSet := by
  have halike := h.alike.new table
  refine halike.loadSet ?_
  refine (filterMap_eq_filterMap_of_pairing h.requestedClasses fun s t hst => ?_).symm
  rw [← halike.checkClass, ← halike.table, checkClass_congr hst, SymbolTable.classNamed?_congr hst]

theorem ofRun (h : a.Respelt b) (table : SymbolTable) :
    (Context.ofRun table a).Alike (Context.ofRun table b) := by
  refine h.alike.ofRun ?_
  have hnames : (new table a).names = (new table b).names := by
    simp only [new, NameTable.new, h.alike.affixes, h.alike.output]
  rw [Context.ofRun, Context.ofRun, register, register, hnames, h.loadSet table]

theorem runOrder (h : a.Respelt b) (table : SymbolTable) :
    Context.runOrder table a = Context.runOrder table b := by
  rw [Context.runOrder, Context.runOrder, h.loadSet table]
  rfl

theorem loadNotices (h : a.Respelt b) (table : SymbolTable) :
    List.Forall₂ Notice.Respelt (new table a).loadNotices (new table b).loadNotices := by
  refine List.rel_filterMap (fun s t hst => ?_) h.requestedClasses
  rw [← (h.alike.new table).checkClass, checkClass_congr hst]
  cases (new table a).checkClass t with
  | accepted => exact .none
  | rejected reason => exact .some (.inr ⟨rfl, rfl, hst⟩)

end Config.Respelt

/-! ### Runs -/

/-- Results that differ at most in the spelling of classes that are not loaded, in notices. -/
def GenerationOutput.Respelt (g h : GenerationOutput) : Prop :=
  h = { g with notices := h.notices } ∧ List.Forall₂ Notice.Respelt g.notices h.notices

open Context

/-- A run, with its context and its order named. -/
theorem generate_eq (table : SymbolTable) (config : Config) : generate table config =
    match config.validate with
    | .error e => .error (.config e)
    | .ok () =>
      (ofRun table config).generateClasses 0 (runOrder table config) >>= fun (classes, counter) =>
        (ofRun table config).wrapFunctions counter >>= fun wrapping =>
          .ok ((ofRun table config).assemble (new table config).loadNotices classes wrapping) := rfl

/-- **The spelling of configured names does not matter.**  Runs of configurations that spell the
same names fail with one error, or have one result but for the notices, which differ at most in the
spelling of classes that are not loaded. -/
theorem generate_respelt {a b : Config} (h : a.Respelt b) (table : SymbolTable) :
    Agree GenerationOutput.Respelt (generate table a) (generate table b) := by
  have hrun := h.ofRun table
  rw [generate_eq, generate_eq, ← h.alike.validate, ← h.runOrder table, ← hrun.generateClasses,
    ← hrun.wrapFunctions, ← hrun.assemble]
  cases a.validate with
  | error e => exact .error _
  | ok valid =>
      refine Agree.bind _ fun (classes, counter) => Agree.bind _ fun wrapping => .ok ⟨rfl, ?_⟩
      have hsame : ∀ notices : List Notice, List.Forall₂ Notice.Respelt notices notices :=
        fun notices => List.forall₂_same.2 fun _ _ => .inl rfl
      exact List.rel_append (List.rel_append (h.loadNotices table) (hsame _)) (hsame _)

/-! ### A class and its respellings -/

/-- A class in a namespace, and a function that takes one. -/
def cityTable : SymbolTable where
  records :=
    [.ofClass { id := ⟨"_1"⟩, name := "City", scope := ["geo"] },
      .ofFunction { id := ⟨"_2"⟩, name := "visit", returns := some (.named "void")
                    args := [{ type := .of ⟨"_1"⟩ ["geo"] "City" }] }]
  distinct := by decide

/-- Asks for the class and the function, and for a class that is not there. -/
def cityConfig : Config where
  load := { classes := ["geo::City", "geo::Town"], functions := ["visit"], ditch := ["geo::leave"] }
  knownClasses := [("geo::Map", "map.h")]

/-- Asks for the same in other spellings. -/
def spacedConfig : Config where
  load :=
    { classes := [" ::geo:: City", "geo ::\tTown"], functions := ["visit"]
      ditch := ["\n:: geo::leave "] }
  knownClasses := [("::geo::Map", "map.h")]

theorem cityTable_wellFormed : cityTable.WellFormed where
  members := by simp [cityTable, SymbolTable.classes, Record.asClass?]
  typed := by decide
  bases := by simp [cityTable, Record.types, SymbolTable.HasBase, SymbolTable.lookup, Record.id,
    TypeRef.of, TypeRef.named, Record.isType]

theorem cityConfig_respelt : cityConfig.Respelt spacedConfig := by
  have hcity : Name.Respelt "geo::City" " ::geo:: City" :=
    .inr ⟨"geo::City", Name.spells_self (by cbv) (by decide),
      .of_squeeze [' '] "::".toList "geo:: City".toList (by cbv)
        (List.forall_mem_singleton.2 (by cbv)) (.inr rfl) (by cbv) (by decide)⟩
  have htown : Name.Respelt "geo::Town" "geo ::\tTown" :=
    .inr ⟨"geo::Town", Name.spells_self (by cbv) (by decide),
      .of_squeeze [] [] "geo ::\tTown".toList (by cbv) (by simp) (.inl rfl) (by cbv) (by decide)⟩
  have hleave : Name.Respelt "geo::leave" "\n:: geo::leave " :=
    .inr ⟨"geo::leave", Name.spells_self (by cbv) (by decide),
      .of_squeeze ['\n'] "::".toList " geo::leave ".toList (by cbv)
        (List.forall_mem_singleton.2 (by cbv)) (.inr rfl) (by cbv) (by decide)⟩
  have hmap : Name.Respelt "geo::Map" "::geo::Map" :=
    .inr ⟨"geo::Map", Name.spells_self (by cbv) (by decide),
      .of_squeeze [] "::".toList "geo::Map".toList (by cbv) (by simp) (.inr rfl) (by cbv)
        (by decide)⟩
  refine ⟨.cons hcity (.cons htown .nil), .cons hleave .nil, ?_, ?_, rfl⟩
  · intro k hk
    obtain rfl := List.mem_singleton.1 hk
    exact ⟨_, List.mem_singleton_self _, hmap⟩
  · intro k hk
    obtain rfl := List.mem_singleton.1 hk
    exact ⟨_, List.mem_singleton_self _, hmap⟩

theorem generate_respelt_city : cityConfig.Respelt spacedConfig ∧
    ∃ g h, generate cityTable cityConfig = .ok g ∧ generate cityTable spacedConfig = .ok h ∧
      g.Respelt h := by
  obtain ⟨g, hg⟩ := succeeds_generate cityTable_wellFormed
    (show cityConfig.validate = .ok () by cbv)
  have hagree := generate_respelt cityConfig_respelt cityTable
  rw [hg] at hagree
  generalize houtcome : generate cityTable spacedConfig = outcome at hagree
  cases hagree with
  | ok h => exact ⟨cityConfig_respelt, g, _, hg, rfl, h⟩

end LoadBridge
