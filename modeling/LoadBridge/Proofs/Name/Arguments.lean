import LoadBridge.Proofs.Name.Template

/-!
# Names — What template arguments name

A template argument is a use of a type, with qualifiers, stars and a reference around a name;
`bare` takes them off.  As that name can have a template bracket itself, a name stands in another
one as what a template argument uses, or somewhere in that (`Within`).

What stands in a name is part of its text (`Within.isInfix`).  In a name that is written as a
template over uses of types, at any depth, exactly the names of these uses stand
(`Written.within_iff`).
-/

namespace LoadBridge

open Text

namespace Text

/-- A piece is part of the text in which it is listed. -/
theorem isInfix_intercalate (sep : List Char) {p : List Char} {ps : List (List Char)}
    (hp : p ∈ ps) : p <:+: sep.intercalate ps := by
  induction ps with
  | nil => cases hp
  | cons q ps ih =>
    rcases ps with _ | ⟨q', ps⟩
    · rw [List.mem_singleton.1 hp, List.intercalate_singleton]
    · rw [List.intercalate_cons_cons]
      rcases List.mem_cons.1 hp with rfl | hp
      · exact ((List.prefix_append p sep).trans (List.prefix_append _ _)).isInfix
      · exact (ih hp).trans (List.suffix_append _ _).isInfix

theorem trim_isInfix (cs : List Char) : trim cs <:+: cs := by
  obtain ⟨lead, tail, hcs, -, -⟩ := exists_trim cs
  exact ⟨lead, tail, by rw [List.append_assoc, ← hcs]⟩

end Text

namespace Name

variable {s arg name : String} {cs word edges : List Char} {words : List (List Char)}

/-! ### Uses of types -/

/-- Whether a character of a use of a type belongs to no word of it. -/
def isEdge (c : Char) : Bool := isBlank c || c == '*' || c == '&'

/-- The text behind the edges and the words of this list that it starts with. -/
def peel (words : List (List Char)) (cs : List Char) : List Char :=
  match _hrest : cs.dropWhile isEdge with
  | [] => []
  | c :: rest =>
    if c :: rest.takeWhile (!isEdge ·) ∈ words then peel words (rest.dropWhile (!isEdge ·))
    else c :: rest
termination_by cs.length
decreasing_by
  have hword := (List.dropWhile_suffix (!isEdge ·) (l := rest)).length_le
  have hedges := (List.dropWhile_suffix isEdge (l := cs)).length_le
  rw [_hrest, List.length_cons] at hedges
  omega

def qualifierWords : List (List Char) := ["const".toList, "volatile".toList]

/-- The name in a use of a type: the text without qualifiers, stars and references. -/
def bare (s : String) : String :=
  .ofList (peel (qualifierWords.map .reverse) (peel qualifierWords s.toList).reverse).reverse

/-- The first word of a text is there, and it is none of these. -/
abbrev StartsApart (words : List (List Char)) (cs : List Char) : Prop :=
  cs.takeWhile (!isEdge ·) ∉ [] :: words

/-- A name that begins and ends neither with an edge nor with a qualifier. -/
abbrev StandsBare (cs : List Char) : Prop :=
  StartsApart qualifierWords cs ∧ StartsApart (qualifierWords.map .reverse) cs.reverse

theorem peel_isSuffix (words : List (List Char)) (cs : List Char) : peel words cs <:+ cs := by
  fun_induction peel words cs with
  | case1 cs => exact List.nil_suffix
  | case2 cs c rest hrest hword ih =>
    have hcs : c :: rest <:+ cs := hrest ▸ List.dropWhile_suffix isEdge
    exact ih.trans ((List.dropWhile_suffix _).trans ((List.suffix_cons c rest).trans hcs))
  | case3 cs c rest hrest hword => exact hrest ▸ List.dropWhile_suffix isEdge

theorem bare_isInfix (s : String) : (bare s).toList <:+: s.toList := by
  have hback := List.reverse_prefix.2 (peel_isSuffix (qualifierWords.map .reverse)
    (peel qualifierWords s.toList).reverse)
  rw [List.reverse_reverse] at hback
  rw [bare, String.toList_ofList]
  exact hback.isInfix.trans (peel_isSuffix _ _).isInfix

theorem peel_eq_nil (hcs : cs.dropWhile isEdge = []) : peel words cs = [] := by
  rw [peel]
  split
  · rfl
  · next heq => rw [hcs] at heq; cases heq

/-- What is done about the first word of a text. -/
theorem peel_eq_ite {c : Char} {rest : List Char} (hcs : cs.dropWhile isEdge = c :: rest) :
    peel words cs = if c :: rest.takeWhile (!isEdge ·) ∈ words
      then peel words (rest.dropWhile (!isEdge ·)) else c :: rest := by
  rw [peel]
  split
  · next heq => rw [hcs] at heq; cases heq
  · next heq => rw [hcs] at heq; cases heq; rfl

/-- Edges are taken off. -/
theorem peel_edges_append (hedges : ∀ c ∈ edges, isEdge c = true) :
    peel words (edges ++ cs) = peel words cs := by
  have hdropped : (edges ++ cs).dropWhile isEdge = cs.dropWhile isEdge :=
    List.dropWhile_append_of_pos hedges
  cases hcs : cs.dropWhile isEdge with
  | nil => rw [peel_eq_nil hcs, peel_eq_nil (hdropped.trans hcs)]
  | cons c rest => rw [peel_eq_ite hcs, peel_eq_ite (hdropped.trans hcs)]

/-- A text whose first word is none of the words to be taken off stays as it is. -/
theorem peel_eq_self (h : StartsApart words cs) : peel words cs = cs := by
  cases cs with
  | nil => exact absurd List.mem_cons_self h
  | cons c rest =>
    have hc : isEdge c = false := by
      by_contra hc
      exact h (by simp [hc])
    have htaken : (c :: rest).takeWhile (!isEdge ·) = c :: rest.takeWhile (!isEdge ·) :=
      List.takeWhile_cons_of_pos (by simp [hc])
    rw [peel_eq_ite (List.dropWhile_cons_of_neg (by simp [hc])), if_neg]
    exact fun hword => h (htaken ▸ List.mem_cons_of_mem _ hword)

/-- Edges behind a text do not make its first word another one. -/
theorem StartsApart.append_edges (h : StartsApart words cs)
    (hedges : ∀ c ∈ edges, isEdge c = true) : StartsApart words (cs ++ edges) := by
  have hnone : edges.takeWhile (!isEdge ·) = [] := by
    cases edges with
    | nil => rfl
    | cons c edges => exact List.takeWhile_cons_of_neg (by simp [hedges c List.mem_cons_self])
  rw [StartsApart, List.takeWhile_append]
  split
  · next hwhole =>
    rw [hnone, List.append_nil, ← (List.takeWhile_prefix _).eq_of_length hwhole]
    exact h
  · exact h

/-- A word of the list is taken off, with the space behind it. -/
theorem peel_word_append (hword : word ∈ words) (hne : word ≠ [])
    (hinner : word.all (!isEdge ·) = true) (cs : List Char) :
    peel words (word ++ ' ' :: cs) = peel words cs := by
  obtain ⟨c, rest, rfl⟩ := List.exists_cons_of_ne_nil hne
  obtain ⟨hc, hrest⟩ := List.forall_mem_cons.1 (List.all_eq_true.1 hinner)
  have hspace : isEdge ' ' = true := by decide
  have hdropped : (c :: rest ++ ' ' :: cs).dropWhile isEdge = c :: (rest ++ ' ' :: cs) :=
    List.dropWhile_cons_of_neg (by simpa using hc)
  have htaken : (rest ++ ' ' :: cs).takeWhile (!isEdge ·) = rest := by
    rw [List.takeWhile_append_of_pos hrest, List.takeWhile_cons_of_neg (by simp [hspace]),
      List.append_nil]
  have hbehind : (rest ++ ' ' :: cs).dropWhile (!isEdge ·) = ' ' :: cs := by
    rw [List.dropWhile_append_of_pos hrest, List.dropWhile_cons_of_neg (by simp [hspace])]
  rw [peel_eq_ite hdropped, htaken, if_pos hword, hbehind]
  exact peel_edges_append (List.forall_mem_singleton.2 hspace)

theorem peel_qualifiers (cv : Qualifiers) (cs : List Char) :
    peel qualifierWords (cv.text.toList ++ cs) = peel qualifierWords cs := by
  have hconst (cs : List Char) :
      peel qualifierWords ("const ".toList ++ cs) = peel qualifierWords cs :=
    peel_word_append (show "const".toList ∈ qualifierWords by decide) (by decide) (by decide) cs
  have hvolatile (cs : List Char) :
      peel qualifierWords ("volatile ".toList ++ cs) = peel qualifierWords cs :=
    peel_word_append (show "volatile".toList ∈ qualifierWords by decide) (by decide) (by decide) cs
  obtain ⟨isConst, isVolatile⟩ := cv
  rw [Qualifiers.text, String.toList_append, List.append_assoc]
  cases isConst <;> cases isVolatile
  · rfl
  · exact hvolatile cs
  · exact hconst cs
  · exact (hconst _).trans (hvolatile cs)

theorem isEdge_of_mem_indirection (t : TypeRef) : ∀ c ∈ t.indirection.toList, isEdge c = true := by
  intro c hc
  rw [TypeRef.indirection, String.toList_append, List.mem_append] at hc
  rcases hc with hc | hc
  · rw [TypeRef.stars, String.toList_ofList] at hc
    rw [List.eq_of_mem_replicate hc]
    decide
  · split at hc
    · rw [List.mem_singleton.1 (show c ∈ ['&'] from hc)]
      decide
    · cases hc

/-- **A use of a type uses its base**, whatever is put around it. -/
theorem bare_renderWith (t : TypeRef) (h : StandsBare name.toList) :
    bare (t.renderWith name) = name := by
  have hedges := isEdge_of_mem_indirection t
  have hfront : peel qualifierWords (t.renderWith name).toList =
      name.toList ++ t.indirection.toList := by
    rw [TypeRef.renderWith, String.toList_append, String.toList_append, List.append_assoc,
      peel_qualifiers, peel_eq_self (h.1.append_edges hedges)]
  rw [bare, hfront, List.reverse_append,
    peel_edges_append (fun c hc => hedges c (List.mem_reverse.1 hc)), peel_eq_self h.2,
    List.reverse_reverse, String.ofList_toList]

/-! ### Names within names -/

/-- A name without a template bracket is its short name. -/
theorem splitTemplate_of_unbracketed (h : '<' ∉ s.toList) : splitTemplate s = (s, []) := by
  have hnone : s.toList.dropWhile (· != '<') = [] :=
    List.dropWhile_eq_nil_iff.2 fun c hc => bne_iff_ne.2 fun heq => h (heq ▸ hc)
  rw [splitTemplate, hnone]

/-- A name stands in another: a template argument uses it, or it stands in what one uses. -/
inductive Within : String → String → Prop where
  | argument {s arg : String} (harg : arg ∈ (splitTemplate s).2) : Within s (bare arg)
  | nested {s arg name : String} (harg : arg ∈ (splitTemplate s).2)
      (hname : Within (bare arg) name) : Within s name

theorem within_iff : Within s name ↔
    ∃ arg ∈ (splitTemplate s).2, name = bare arg ∨ Within (bare arg) name := by
  constructor
  · rintro (harg | ⟨harg, hname⟩)
    · exact ⟨_, harg, .inl rfl⟩
    · exact ⟨_, harg, .inr hname⟩
  · rintro ⟨arg, harg, rfl | hname⟩
    · exact .argument harg
    · exact .nested harg hname

theorem bracketInside_isPrefix (cs : List Char) : bracketInside cs <+: cs := by
  have htrim : trimEnd cs <+: cs := trimEnd_eq_rdropWhile cs ▸ List.rdropWhile_prefix isBlank cs
  rw [bracketInside]
  split
  · exact (List.dropLast_prefix _).trans htrim
  · exact htrim

/-- A template argument is part of the name. -/
theorem isInfix_of_mem_splitTemplate (harg : arg ∈ (splitTemplate s).2) :
    arg.toList <:+: s.toList := by
  rw [splitTemplate] at harg
  split at harg
  · cases harg
  · next c afterOpen hbracket =>
    obtain ⟨cs, hcs, rfl⟩ := List.mem_map.1 harg
    have hpiece : cs ∈ (commaPieces .angle 0 (bracketInside afterOpen)).map trim := by
      rw [templateArguments] at hcs
      split at hcs
      · exact List.mem_of_mem_dropLast hcs
      · exact hcs
    obtain ⟨piece, hcut, rfl⟩ := List.mem_map.1 hpiece
    have hinside := isInfix_intercalate [','] hcut
    rw [intercalate_commaPieces] at hinside
    have hafter : afterOpen <:+ s.toList :=
      (List.suffix_cons c afterOpen).trans (hbracket ▸ List.dropWhile_suffix _)
    rw [String.toList_ofList]
    exact (trim_isInfix piece).trans
      (hinside.trans ((bracketInside_isPrefix _).isInfix.trans hafter.isInfix))

/-- **What stands in a name is part of its text.** -/
theorem Within.isInfix (h : Within s name) : name.toList <:+: s.toList := by
  induction h with
  | argument harg => exact (bare_isInfix _).trans (isInfix_of_mem_splitTemplate harg)
  | nested harg _ ih => exact ih.trans ((bare_isInfix _).trans (isInfix_of_mem_splitTemplate harg))

/-! ### Templates over uses of types -/

/-- A use of a type that can be listed in a template bracket and is read as it is written. -/
structure IsTypeArgument (t : TypeRef) : Prop where
  listed : IsTemplateArgument t.display.toList
  holdsCommas : HoldsCommas t.display.toList
  bare : StandsBare t.qualifiedName.toList
  plain : t.extents = []

instance (t : TypeRef) : Decidable (IsTypeArgument t) :=
  decidable_of_iff (IsTemplateArgument t.display.toList ∧ HoldsCommas t.display.toList ∧
      StandsBare t.qualifiedName.toList ∧ t.extents = [])
    ⟨fun ⟨h, hcommas, hbare, hplain⟩ => ⟨h, hcommas, hbare, hplain⟩,
      fun h => ⟨h.listed, h.holdsCommas, h.bare, h.plain⟩⟩

/-- A name is written without a template bracket, or as a template over uses of types whose names
are written in turn.  Then the names of these uses are written in it, and all that are written in
them. -/
inductive Written : String → List String → Prop where
  | plain {s : String} (hplain : '<' ∉ s.toList) : Written s []
  | template {short : String} {args : List TypeRef} {inner : TypeRef → List String}
      (hshort : '<' ∉ short.toList) (hne : args ≠ []) (hargs : ∀ t ∈ args, IsTypeArgument t)
      (hinner : ∀ t ∈ args, Written t.qualifiedName (inner t)) :
      Written (writeTemplate short (args.map TypeRef.display))
        (args.flatMap fun t => t.qualifiedName :: inner t)

/-- A template over one use of a type. -/
theorem Written.single {short : String} {t : TypeRef} {names : List String}
    (hshort : '<' ∉ short.toList) (ht : IsTypeArgument t) (h : Written t.qualifiedName names) :
    Written (writeTemplate short [t.display]) (t.qualifiedName :: names) := by
  have hone := @Written.template short [t] (fun _ => names) hshort (List.cons_ne_nil _ _)
    (List.forall_mem_singleton.2 ht) (List.forall_mem_singleton.2 h)
  rwa [List.flatMap_singleton] at hone

theorem IsTypeArgument.bare_display {t : TypeRef} (h : IsTypeArgument t) :
    Name.bare t.display = t.qualifiedName := by
  rw [TypeRef.display, TypeRef.extentsText, h.plain, List.map_nil]
  exact (congrArg Name.bare (String.append_empty ..)).trans (bare_renderWith t h.bare)

/-- **The names that are written in a name are those that stand in it.** -/
theorem Written.within_iff {names : List String} (h : Written s names) :
    Within s name ↔ name ∈ names := by
  induction h generalizing name with
  | plain hplain =>
    refine ⟨fun h => ?_, fun h => (List.not_mem_nil h).elim⟩
    obtain ⟨arg, harg, -⟩ := Name.within_iff.1 h
    rw [splitTemplate_of_unbracketed hplain] at harg
    cases harg
  | @template short args inner hshort hne hargs hinner ih =>
    have hread : (splitTemplate (writeTemplate short (args.map TypeRef.display))).2 =
        args.map TypeRef.display := by
      rw [splitTemplate_pieces hshort (by simpa using hne)
        (List.forall_mem_map.2 fun t ht => (hargs t ht).listed)]
      exact (flatMap_argumentPieces_iff
        (List.forall_mem_map.2 fun t ht => (hargs t ht).listed)).2
        (List.forall_mem_map.2 fun t ht => (hargs t ht).holdsCommas)
    rw [Name.within_iff, hread]
    simp only [List.mem_map, exists_exists_and_eq_and, List.mem_flatMap]
    refine exists_congr fun t => and_congr_right fun ht => ?_
    rw [(hargs t ht).bare_display, ih t ht, List.mem_cons]

end Name

end LoadBridge
