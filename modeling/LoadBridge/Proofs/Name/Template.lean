import LoadBridge.Bridge.Interface
import LoadBridge.Proofs.Name.Parsing
import Mathlib.Algebra.BigOperators.Group.List.Basic

/-!
# Names — Template arguments

The arguments in a template bracket are cut at the commas outside of brackets, and only template
brackets count.  So a list of arguments comes back from the name in which it is written where no
comma stands outside of template brackets (`HoldsCommas`); an argument with a comma in parentheses
comes back in pieces (`splitTemplate_writeTemplate`).  The primary template is declared with one
parameter for each piece (`length_primaryTemplateParams`).
-/

namespace LoadBridge

open Text

namespace Text

variable {cs : List Char} {args : List (List Char)}

/-- Every comma of the text stands in template brackets. -/
def HoldsCommas (cs : List Char) : Prop :=
  ∀ first, first ++ [','] <+: cs → first.count '>' < first.count '<'

/-- Only the beginnings of a text are to be looked at. -/
instance (cs : List Char) : Decidable (HoldsCommas cs) :=
  decidable_of_iff (∀ first ∈ cs.inits, first ++ [','] <+: cs → first.count '>' < first.count '<')
    ⟨fun h first hfirst =>
        h first ((List.mem_inits _ _).2 ((List.prefix_append ..).trans hfirst)) hfirst,
      fun h first _ => h first⟩

theorem IsArgument.angle_closed (h : IsArgument cs) : Brackets.angle.afterText 0 cs = 0 := by
  have hopen := afterText_angle h.angle.count_le
  rw [h.angle.count_eq] at hopen
  omega

/-- Where template brackets are balanced, the text is one piece if they hold its commas. -/
theorem IsArgument.isPiece_angle_iff (h : IsArgument cs) :
    IsPiece .angle 0 cs ↔ HoldsCommas cs := by
  rw [isPiece_iff]
  refine forall₂_congr fun first hfirst => ?_
  have hprefix : first <+: cs := (List.prefix_append ..).trans hfirst
  have hopen := afterText_angle fun _ h' => h.angle.count_le _ (h'.trans hprefix)
  omega

/-! ### Pieces of a list -/

theorem intercalate_concat (sep : List Char) {ps : List (List Char)} (hne : ps ≠ [])
    (p : List Char) : sep.intercalate (ps ++ [p]) = sep.intercalate ps ++ (sep ++ p) := by
  induction ps with
  | nil => exact absurd rfl hne
  | cons q ps ih =>
    cases ps with
    | nil =>
      rw [List.singleton_append, List.intercalate_cons_cons, List.intercalate_singleton,
        List.intercalate_singleton, List.append_assoc]
    | cons q' ps =>
      rw [List.cons_append, List.cons_append, List.intercalate_cons_cons, ← List.cons_append,
        ih (List.cons_ne_nil _ _), List.intercalate_cons_cons, List.append_assoc (q ++ sep)]

theorem map_trim_commaPieces_space (cs : List Char) :
    (commaPieces .angle 0 (' ' :: cs)).map trim = (commaPieces .angle 0 cs).map trim := by
  rw [commaPieces, if_neg (by decide), show Brackets.angle.after 0 ' ' = 0 from rfl]
  obtain ⟨p, ps, hpieces⟩ := List.exists_cons_of_ne_nil (commaPieces_ne_nil .angle 0 cs)
  rw [hpieces]
  rfl

/-- A list of texts behind which no bracket is open is cut text by text. -/
theorem map_trim_commaPieces_listed (hne : args ≠ [])
    (hclosed : ∀ a ∈ args, Brackets.angle.afterText 0 a = 0) :
    (commaPieces .angle 0 ([',', ' '].intercalate args)).map trim =
      args.flatMap fun a => (commaPieces .angle 0 a).map trim := by
  induction args with
  | nil => exact absurd rfl hne
  | cons a rest ih =>
    obtain ⟨ha, hrest⟩ := List.forall_mem_cons.1 hclosed
    cases rest with
    | nil => simp [List.intercalate_singleton]
    | cons a' rest =>
      have hlist : [',', ' '].intercalate (a :: a' :: rest) =
          a ++ ',' :: ' ' :: [',', ' '].intercalate (a' :: rest) := by
        rw [List.intercalate_cons_cons]
        simp
      rw [hlist, commaPieces_append_comma rfl ha, List.map_append, map_trim_commaPieces_space,
        ih (List.cons_ne_nil _ _) hrest]
      rfl

/-- Lists that are not empty have one entry each if there are as many entries as lists. -/
theorem length_flatMap_eq_iff {α β : Type} {f : α → List β} (hf : ∀ a, f a ≠ []) {as : List α} :
    (as.flatMap f).length = as.length ↔ ∀ a ∈ as, (f a).length = 1 := by
  have hpos (a : α) : 1 ≤ (f a).length := List.length_pos_of_ne_nil (hf a)
  induction as with
  | nil => simp
  | cons a rest ih =>
    have hle : rest.length ≤ (rest.flatMap f).length := by
      rw [List.length_flatMap, ← List.length_map (fun a => (f a).length)]
      exact List.length_le_sum_of_one_le _ (List.forall_mem_map.2 fun a _ => hpos a)
    have ha := hpos a
    rw [List.forall_mem_cons, List.flatMap_cons, List.length_append, List.length_cons]
    exact ⟨fun h => ⟨by omega, ih.1 (by omega)⟩, fun h => by have := ih.2 h.2; omega⟩

end Text

namespace Name

variable {short : String} {args : List String} {cs : List Char}

/-! ### Templates as they are written -/

/-- A text that can stand before a template bracket: something without blanks at its ends. -/
structure IsTemplateName (cs : List Char) : Prop where
  ne_nil : cs ≠ []
  trim_eq : trim cs = cs
  unbracketed : '<' ∉ cs

instance (cs : List Char) : Decidable (IsTemplateName cs) :=
  decidable_of_iff (cs ≠ [] ∧ trim cs = cs ∧ '<' ∉ cs)
    ⟨fun ⟨hne, htrim, h⟩ => ⟨hne, htrim, h⟩, fun h => ⟨h.ne_nil, h.trim_eq, h.unbracketed⟩⟩

/-- A text that can be listed in a template bracket: something without blanks at its ends, in which
brackets and parentheses are balanced and hold all commas. -/
structure IsTemplateArgument (cs : List Char) : Prop where
  ne_nil : cs ≠ []
  trim_eq : trim cs = cs
  argument : IsArgument cs

instance (cs : List Char) : Decidable (IsTemplateArgument cs) :=
  decidable_of_iff (cs ≠ [] ∧ trim cs = cs ∧ IsArgument cs)
    ⟨fun ⟨hne, htrim, h⟩ => ⟨hne, htrim, h⟩, fun h => ⟨h.ne_nil, h.trim_eq, h.argument⟩⟩

/-- `short<arg1, arg2>`. -/
def writeTemplate (short : String) (args : List String) : String :=
  short ++ "<" ++ ", ".intercalate args ++ ">"

/-- What a listed argument is read as: the pieces of it between commas that template brackets do
not hold. -/
def argumentPieces (arg : String) : List String :=
  ((commaPieces .angle 0 arg.toList).map trim).map .ofList

theorem toList_writeTemplate (short : String) (args : List String) :
    (writeTemplate short args).toList =
      short.toList ++ '<' :: ([',', ' '].intercalate (args.map String.toList) ++ ['>']) := by
  simp [writeTemplate, String.toList_intercalate]

/-- What stands between the first `<` and a `>` at the end of a name are its arguments. -/
theorem splitTemplate_writeTemplate_eq (hshort : '<' ∉ short.toList) (args : List String) :
    splitTemplate (writeTemplate short args) = (.ofList (trimEnd short.toList),
      (templateArguments ([',', ' '].intercalate (args.map String.toList))).map .ofList) := by
  have hpos : ∀ c ∈ short.toList, (c != '<') = true := fun c hc => by
    simpa using fun h : c = '<' => hshort (h ▸ hc)
  rw [splitTemplate, toList_writeTemplate]
  simp only [List.dropWhile_append_of_pos hpos, List.takeWhile_append_of_pos hpos,
    List.dropWhile_cons, List.takeWhile_cons, bne_self_eq_false, Bool.false_eq_true, if_false,
    List.append_nil]
  rw [bracketInside, trimEnd_concat (by decide), List.getLast?_concat, if_pos rfl,
    List.dropLast_concat]

/-- The last piece of an argument is not blank: a comma at its end would be held by nothing. -/
theorem IsTemplateArgument.getLast?_pieces (h : IsTemplateArgument cs) :
    ((commaPieces .angle 0 cs).map trim).getLast? ≠ some [] := by
  obtain ⟨first, p, hpieces⟩ :=
    (List.eq_nil_or_concat' _).resolve_left (commaPieces_ne_nil .angle 0 cs)
  have hwhole := intercalate_commaPieces .angle 0 cs
  rw [hpieces] at hwhole ⊢
  rw [List.map_append, List.map_singleton, List.getLast?_concat]
  intro hlast
  have hblank : IsBlanks p := squeeze_eq_nil_iff.1 (trim_eq_nil_iff.1 (Option.some.inj hlast))
  by_cases hfirst : first = []
  · rw [hfirst, List.nil_append, List.intercalate_singleton] at hwhole
    exact h.ne_nil (h.trim_eq.symm.trans (hwhole ▸ Option.some.inj hlast))
  · rw [intercalate_concat _ hfirst, List.singleton_append] at hwhole
    -- the blanks behind the comma would have been trimmed
    have hcs : cs = [','].intercalate first ++ [','] := by
      have hend := (trim_eq_self_iff.1 h.trim_eq).2
      rw [← hend, ← hwhole, List.append_cons, trimEnd_append_blanks hblank,
        trimEnd_concat (by decide)]
    have hcomma := h.argument.comma ([','].intercalate first) ⟨[], by rw [List.append_nil, hcs]⟩
    have hangle := h.argument.angle.count_eq
    have hparen := h.argument.paren.count_eq
    simp only [hcs, List.count_append] at hangle hparen
    simp at hangle hparen
    omega

/-! ### Arguments as they are read -/

/-- **The arguments of a template are read as their pieces**, one after the other. -/
theorem splitTemplate_pieces (hshort : '<' ∉ short.toList) (hne : args ≠ [])
    (hargs : ∀ a ∈ args, IsTemplateArgument a.toList) :
    splitTemplate (writeTemplate short args) =
      (.ofList (trimEnd short.toList), args.flatMap argumentPieces) := by
  have hclosed : ∀ a ∈ args.map String.toList, Brackets.angle.afterText 0 a = 0 :=
    List.forall_mem_map.2 fun a ha => (hargs a ha).argument.angle_closed
  have hlast : ((args.map String.toList).flatMap fun a =>
      (commaPieces .angle 0 a).map trim).getLast? ≠ some [] := by
    obtain ⟨first, a, rfl⟩ := (List.eq_nil_or_concat' args).resolve_left hne
    have hpieces : (commaPieces .angle 0 a.toList).map trim ≠ [] := by
      simpa using commaPieces_ne_nil .angle 0 a.toList
    rw [List.map_append, List.flatMap_append, List.map_singleton, List.flatMap_singleton,
      List.getLast?_append_of_ne_nil _ hpieces]
    exact (hargs a (by simp)).getLast?_pieces
  rw [splitTemplate_writeTemplate_eq hshort, templateArguments,
    map_trim_commaPieces_listed (by simpa using hne) hclosed, if_neg hlast, List.flatMap_map,
    List.map_flatMap]
  rfl

/-- As many pieces as arguments are read exactly where each argument is one piece. -/
theorem length_flatMap_argumentPieces_iff (hargs : ∀ a ∈ args, IsTemplateArgument a.toList) :
    (args.flatMap argumentPieces).length = args.length ↔ ∀ a ∈ args, HoldsCommas a.toList := by
  rw [length_flatMap_eq_iff fun a => by simpa [argumentPieces] using commaPieces_ne_nil _ _ _]
  refine forall₂_congr fun a ha => ?_
  rw [← (hargs a ha).argument.isPiece_angle_iff, isPiece_iff_length, argumentPieces,
    List.length_map, List.length_map]

/-- Arguments that hold their commas are read as they are. -/
theorem flatMap_argumentPieces_iff (hargs : ∀ a ∈ args, IsTemplateArgument a.toList) :
    args.flatMap argumentPieces = args ↔ ∀ a ∈ args, HoldsCommas a.toList := by
  refine ⟨fun h => ?_, fun h => ?_⟩
  · exact (length_flatMap_argumentPieces_iff hargs).1 (congrArg List.length h)
  have hself : ∀ a ∈ args, argumentPieces a = [a] := fun a ha => by
    have hpiece := (hargs a ha).argument.isPiece_angle_iff.2 (h a ha)
    rw [argumentPieces, hpiece.commaPieces_eq, List.map_singleton, (hargs a ha).trim_eq,
      List.map_singleton, String.ofList_toList]
  calc args.flatMap argumentPieces
      = args.flatMap fun a => [a] := List.flatMap_congr hself
    _ = args := List.flatMap_singleton' args

/-! ### The primary template -/

/-- A text without marks and without blanks at its ends can be listed, and is read as it is. -/
theorem isTemplateArgument_of_unmarked (hne : cs ≠ []) (htrim : trim cs = cs)
    (hcs : ∀ c ∈ cs, Brackets.call.isMark c = false) : IsTemplateArgument cs ∧ HoldsCommas cs := by
  have hnone {c : Char} (hc : Brackets.call.isMark c = true) : c ∉ cs :=
    fun hmem => Bool.false_ne_true ((hcs c hmem).symm.trans hc)
  have hcomma (first : List Char) (h : first ++ [','] <+: cs) : False :=
    hnone (c := ',') rfl (h.subset (by simp))
  exact ⟨⟨hne, htrim, balanced_of_not_mem (hnone rfl) (hnone rfl),
    balanced_of_not_mem (hnone rfl) (hnone rfl), fun first h => (hcomma first h).elim⟩,
    fun first h => (hcomma first h).elim⟩

theorem isBlank_of_isDigit {c : Char} (hc : c.isDigit = true) : isBlank c = false := by
  obtain ⟨hlow, hhigh⟩ : 48 ≤ c.toNat ∧ c.toNat ≤ 57 := by
    simpa [Char.isDigit, UInt32.le_iff_toNat_le] using hc
  simp [isBlank]
  omega

/-- A parameter of a primary template, whose kind is followed by a number. -/
theorem isTemplateArgument_param {kind : String} (hne : kind.toList ≠ [])
    (htrim : trim kind.toList = kind.toList)
    (hkind : kind.toList.all (fun c => !Brackets.call.isMark c) = true) (i : Nat) :
    IsTemplateArgument (kind ++ i.repr).toList ∧ HoldsCommas (kind ++ i.repr).toList := by
  have hdigit : ∀ c ∈ i.repr.toList, c.isDigit = true := fun c hc =>
    Nat.isDigit_of_mem_toDigits (by omega) (by omega) (Nat.toList_repr ▸ hc)
  have hsolid : IsSolid i.repr.toList := fun c hc => isBlank_of_isDigit (hdigit c hc)
  have hrepr : i.repr.toList ≠ [] := by
    rw [Nat.toList_repr]
    exact Nat.toDigits_ne_nil
  rw [String.toList_append]
  refine isTemplateArgument_of_unmarked (by simp [hne]) ?_ ?_
  · simpa using trim_append_append htrim hne hsolid.trim_eq hrepr []
  · refine List.forall_mem_append.2 ⟨by simpa using hkind, fun c hc => ?_⟩
    by_contra hmark
    simp only [Brackets.isMark, Brackets.call, Bool.not_eq_false, Bool.or_eq_true,
      beq_iff_eq] at hmark
    rcases hmark with (rfl | rfl | rfl) | rfl | rfl <;> exact absurd (hdigit _ hc) (by decide)

/-- **The primary template has a parameter for each argument.** -/
theorem length_primaryTemplateParams (args : List String) :
    (splitTemplate (primaryTemplateParams args)).2.length = args.length := by
  obtain ⟨params, hlength, hparams, htext⟩ : ∃ params : List String, params.length = args.length ∧
      (∀ a ∈ params, IsTemplateArgument a.toList ∧ HoldsCommas a.toList) ∧
      primaryTemplateParams args = writeTemplate "template " params := by
    refine ⟨_, ?_, ?_, rfl⟩
    · rw [List.length_map, List.length_zipIdx]
    · refine List.forall_mem_map.2 fun (arg, i) _ => ?_
      dsimp only
      split
      · exact isTemplateArgument_param (by decide) (by decide) (by decide) i
      · exact isTemplateArgument_param (by decide) (by decide) (by decide) i
  rw [htext, ← hlength]
  by_cases hne : params = []
  · rw [hne]
    decide
  · rw [splitTemplate_pieces (by decide) hne fun a ha => (hparams a ha).1]
    exact (length_flatMap_argumentPieces_iff fun a ha => (hparams a ha).1).2
      fun a ha => (hparams a ha).2

/-- **Template arguments are split at the commas that template brackets do not hold.**  The short
name comes back, and each argument as its pieces; so the arguments come back exactly where template
brackets hold all commas, and the primary template that is declared for the companions of a class
has as many parameters as the class has arguments exactly there, too. -/
theorem splitTemplate_writeTemplate (hshort : IsTemplateName short.toList) (hne : args ≠ [])
    (hargs : ∀ a ∈ args, IsTemplateArgument a.toList) :
    splitTemplate (writeTemplate short args) = (short, args.flatMap argumentPieces) ∧
    (splitTemplate (writeTemplate short args) = (short, args) ↔
      ∀ a ∈ args, HoldsCommas a.toList) ∧
    ∀ c : ClassRecord, c.name = writeTemplate short args → ∀ companion, ∃ params,
      forwardDeclaration c companion =
        .line (params ++ " class " ++ (splitTemplate companion).1 ++ ";") ++
          .line ("template <> class " ++ companion ++ ";") ∧
      (splitTemplate params).2.length = (args.flatMap argumentPieces).length ∧
      ((splitTemplate params).2.length = args.length ↔ ∀ a ∈ args, HoldsCommas a.toList) := by
  have hread : splitTemplate (writeTemplate short args) =
      (short, args.flatMap argumentPieces) := by
    rw [splitTemplate_pieces hshort.unbracketed hne hargs,
      (trim_eq_self_iff.1 hshort.trim_eq).2, String.ofList_toList]
  refine ⟨hread, ?_, fun c hc companion => ?_⟩
  · rw [hread, Prod.mk.injEq, and_iff_right rfl, flatMap_argumentPieces_iff hargs]
  · have hbracket : c.isSpecialization = true := by
      rw [ClassRecord.isSpecialization, hc, toList_writeTemplate]
      simp
    have htemplate : c.templateArgs = args.flatMap argumentPieces := by
      rw [ClassRecord.templateArgs, hc, hread]
    refine ⟨primaryTemplateParams c.templateArgs, ?_, ?_, ?_⟩
    · rw [forwardDeclaration, if_pos hbracket]
    · rw [length_primaryTemplateParams, htemplate]
    · rw [length_primaryTemplateParams, htemplate, length_flatMap_argumentPieces_iff hargs]

/-- Brackets in brackets, and a function type whose comma a template bracket holds. -/
theorem splitTemplate_writeTemplate_map :
    IsTemplateName "Map".toList ∧
    (∀ a ∈ ["std::pair<int, Set<char>>", "Fn<void(int, double)>"], IsTemplateArgument a.toList) ∧
    splitTemplate "Map<std::pair<int, Set<char>>, Fn<void(int, double)>>" =
      ("Map", ["std::pair<int, Set<char>>", "Fn<void(int, double)>"]) := by
  have hshort : IsTemplateName "Map".toList := by decide
  have hargs : ∀ a ∈ ["std::pair<int, Set<char>>", "Fn<void(int, double)>"],
      IsTemplateArgument a.toList := by decide
  exact ⟨hshort, hargs,
    (splitTemplate_writeTemplate hshort (by decide) hargs).2.1.2 (by decide)⟩

/-- A function type can be listed as an argument, and its comma cuts it: the class has one argument,
and the primary template of its companions has two parameters. -/
theorem function_argument_split :
    IsTemplateName "Function".toList ∧ IsTemplateArgument "void(int, double)".toList ∧
      writeTemplate "Function" ["void(int, double)"] = "Function<void(int, double)>" ∧
      splitTemplate "Function<void(int, double)>" = ("Function", ["void(int", "double)"]) ∧
      primaryTemplateParams (splitTemplate "Function<void(int, double)>").2 =
        "template <typename T0, typename T1>" := by
  decide

end Name

end LoadBridge
