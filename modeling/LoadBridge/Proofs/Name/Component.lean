import LoadBridge.Name.Qualified
import LoadBridge.Proofs.Text.Balance

/-!
# Names — Components

A component of a name is an identifier with at most one template bracket after it, which is
balanced.  Outside its bracket a component has no colon, so the text of a qualified name tells where
its short name begins, whatever is written before the short name (`scopeText_append_inj`).
-/

namespace LoadBridge.Name

open Text

/-- A character that can stand in an identifier: no blank, colon or angle bracket. -/
def isNameChar (c : Char) : Bool := !isBlank c && c != ':' && c != '<' && c != '>'

/-- Characters that can stand in an identifier, if any. -/
def IsPlain (cs : List Char) : Prop := ∀ c ∈ cs, isNameChar c = true

-- not by inference, which may go through all characters
instance (cs : List Char) : Decidable (IsPlain cs) := List.decidableBAll _ cs

/-- An identifier, with or without a template bracket. -/
def IsComponent (cs : List Char) : Prop :=
  ∃ identifier bracket, cs = identifier ++ bracket ∧ identifier ≠ [] ∧ IsPlain identifier ∧
    (bracket = [] ∨ ∃ inside, bracket = '<' :: inside ++ ['>'] ∧ Balanced '<' '>' inside)

variable {cs mark rest first last : List Char}

theorem IsPlain.not_mem {c : Char} (h : IsPlain cs) (hc : isNameChar c = false) : c ∉ cs :=
  fun hmem => Bool.false_ne_true (hc ▸ h c hmem)

theorem IsPlain.count_eq_zero {c : Char} (h : IsPlain cs) (hc : isNameChar c = false) :
    cs.count c = 0 :=
  List.count_eq_zero.2 (h.not_mem hc)

theorem IsPlain.append (hfirst : IsPlain first) (hlast : IsPlain last) : IsPlain (first ++ last) :=
  fun c hc => (List.mem_append.1 hc).elim (hfirst c) (hlast c)

theorem IsPlain.component (h : IsPlain cs) (hne : cs ≠ []) : IsComponent cs :=
  ⟨cs, [], (List.append_nil cs).symm, hne, h, .inl rfl⟩

namespace IsComponent

theorem ne_nil (h : IsComponent cs) : cs ≠ [] := by
  obtain ⟨identifier, bracket, rfl, hne, -, -⟩ := h
  exact List.append_ne_nil_of_left_ne_nil hne _

/-- A component stays one when more of an identifier is written before it. -/
theorem append_left (hfirst : IsPlain first) (h : IsComponent cs) : IsComponent (first ++ cs) := by
  obtain ⟨identifier, bracket, rfl, hne, hplain, hbracket⟩ := h
  exact ⟨first ++ identifier, bracket, (List.append_assoc ..).symm,
    List.append_ne_nil_of_right_ne_nil _ hne, hfirst.append hplain, hbracket⟩

/-- A component opens as many brackets as it closes. -/
theorem count_eq (h : IsComponent cs) : cs.count '<' = cs.count '>' := by
  obtain ⟨identifier, bracket, rfl, -, hplain, hbracket⟩ := h
  have hopen : identifier.count '<' = 0 := hplain.count_eq_zero rfl
  have hclose : identifier.count '>' = 0 := hplain.count_eq_zero rfl
  obtain rfl | ⟨inside, rfl, hinside⟩ := hbracket
  · rw [List.append_nil, hopen, hclose]
  · simp [hopen, hclose, hinside.count_eq]

/-- **Inside its bracket a component has a bracket open**: what it starts with opens as many as it
closes only where it is still the identifier. -/
theorem isPlain_of_count_eq (h : IsComponent (first ++ last)) (hlast : last ≠ [])
    (hcount : first.count '<' = first.count '>') : IsPlain first := by
  obtain ⟨identifier, bracket, heq, -, hplain, hbracket⟩ := h
  obtain ⟨more, rfl, -⟩ | ⟨more, rfl, hmore⟩ := List.append_eq_append_iff.1 heq
  · exact fun c hc => hplain c (List.mem_append_left _ hc)
  cases more with
  | nil => rwa [List.append_nil]
  | cons c more =>
      exfalso
      obtain rfl | ⟨inside, rfl, hinside⟩ := hbracket
      · cases hmore
      obtain ⟨rfl, hrest⟩ := List.cons.inj hmore
      -- what follows the opening bracket is no more than is inside
      have hinner : more <+: inside := by
        obtain ⟨excess, rfl, hexcess⟩ | ⟨others, rfl, -⟩ := List.append_eq_append_iff.1 hrest
        · obtain ⟨rfl, -⟩ | ⟨-, rfl⟩ := List.append_eq_singleton_iff.1 hexcess.symm
          · exact (List.append_nil inside).symm ▸ List.prefix_rfl
          · exact absurd rfl hlast
        · exact List.prefix_append ..
      have hle := hinside.count_le more hinner
      have hopen : identifier.count '<' = 0 := hplain.count_eq_zero rfl
      have hclose : identifier.count '>' = 0 := hplain.count_eq_zero rfl
      simp [hopen, hclose] at hcount
      omega

/-- A component does not end in a colon. -/
theorem getLast?_ne_colon (h : IsComponent cs) : cs.getLast? ≠ some ':' := by
  obtain ⟨identifier, bracket, rfl, hne, hplain, rfl | ⟨inside, rfl, -⟩⟩ := h
  · rw [List.append_nil]
    exact fun hlast => hplain.not_mem rfl (List.mem_of_getLast? hlast)
  · rw [← List.append_assoc, List.getLast?_concat]
    decide

end IsComponent

/-! ### Scopes -/

/-- The text of a scope before a short name. -/
def scopeText (scope : List String) : List Char := scope.flatMap fun s => s.toList ++ [':', ':']

variable {scope scope' : List String} {more name name' : List Char}

theorem scopeText_cons (s : String) (scope : List String) :
    scopeText (s :: scope) = s.toList ++ [':', ':'] ++ scopeText scope := rfl

theorem toList_join (scope : List String) (name : String) :
    (join scope name).toList = scopeText scope ++ name.toList := by
  rw [join, String.toList_intercalate]
  induction scope with
  | nil => simp [scopeText]
  | cons s rest ih =>
      rw [List.cons_append, List.map_cons, List.intercalate_cons_of_ne_nil (by simp), ih,
        scopeText_cons, List.append_assoc _ _ name.toList]
      rfl

/-- The text of a scope is empty or ends in a colon. -/
theorem scopeText_ends (scope : List String) :
    scopeText scope = [] ∨ (scopeText scope).getLast? = some ':' := by
  induction scope with
  | nil => exact .inl rfl
  | cons s rest ih =>
      refine .inr ?_
      rw [scopeText_cons, List.getLast?_append]
      obtain hnil | hlast := ih
      · simp [hnil]
      · rw [hlast, Option.some_or]

/-- A short name that stands at the end of another is all of it, where both have a scope and one
mark before them. -/
theorem eq_nil_of_scopeText_append (hname : IsComponent name) (hmore : IsComponent (more ++ name))
    (h : scopeText scope' ++ mark = scopeText scope ++ mark ++ more) : more = [] := by
  have hcount : more.count '<' = more.count '>' := by
    have := hmore.count_eq
    rw [List.count_append, List.count_append, hname.count_eq] at this
    omega
  have hplain : IsPlain more := hmore.isPlain_of_count_eq hname.ne_nil hcount
  have hlength := congrArg List.length h
  simp only [List.length_append] at hlength
  rw [List.append_assoc] at h
  obtain ⟨shift, hscope, -⟩ | ⟨shift, hscope, hmark⟩ := List.append_eq_append_iff.1 h
  · -- the second scope is the longer one
    have := congrArg List.length hscope
    simp only [List.length_append] at this
    exact List.length_eq_zero_iff.1 (by omega)
  · -- the first scope is longer by `shift`, which has the colons of `more`: none
    have hcolons : shift.count ':' = 0 := by
      have := congrArg (List.count ':') hmark
      rw [List.count_append, List.count_append, hplain.count_eq_zero rfl] at this
      omega
    have hshift : shift = [] := by
      by_contra hne
      have hlast : shift.getLast? = some ':' := by
        obtain hnil | hlast := scopeText_ends scope'
        · rw [hnil] at hscope
          exact absurd (List.append_eq_nil_iff.1 hscope.symm).2 hne
        · rwa [hscope, List.getLast?_append_of_ne_nil _ hne] at hlast
      exact List.count_eq_zero.1 hcolons (List.mem_of_getLast? hlast)
    rw [hshift, List.append_nil] at hscope
    rw [hscope] at hlength
    exact List.length_eq_zero_iff.1 (by omega)

/-- **The text of a name tells where its short name begins**, whatever mark stands before that. -/
theorem scopeText_append_inj (hname : IsComponent name) (hname' : IsComponent name')
    (h : scopeText scope ++ mark ++ name = scopeText scope' ++ mark ++ name') :
    scopeText scope = scopeText scope' ∧ name = name' := by
  obtain ⟨more, hmore, rfl⟩ | ⟨more, hmore, rfl⟩ := List.append_eq_append_iff.1 h
  · obtain rfl := eq_nil_of_scopeText_append hname' hname hmore
    rw [List.append_nil] at hmore
    exact ⟨(List.append_cancel_right hmore).symm, rfl⟩
  · obtain rfl := eq_nil_of_scopeText_append hname hname' hmore
    rw [List.append_nil] at hmore
    exact ⟨List.append_cancel_right hmore, rfl⟩

/-- A component that goes on after another one does not go on with the colons after that. -/
theorem eq_nil_of_colons {tail tail' : List Char} (h : IsComponent (name ++ more))
    (hname : IsComponent name) (htail : [':', ':'] ++ tail = more ++ tail') : more = [] := by
  cases more with
  | nil => rfl
  | cons c more =>
      exfalso
      obtain ⟨rfl, -⟩ := List.cons.inj htail
      rw [List.append_cons] at h
      have hlast : more ≠ [] := by
        rintro rfl
        exact h.getLast?_ne_colon (by simp)
      have hplain : IsPlain (name ++ [':']) := by
        refine h.isPlain_of_count_eq hlast ?_
        rw [List.count_append, List.count_append, hname.count_eq]
        rfl
      exact hplain.not_mem rfl (by simp : ':' ∈ name ++ [':'])

/-- A scope of components is told by its text. -/
theorem scopeText_inj (hscope : ∀ s ∈ scope, IsComponent s.toList)
    (hscope' : ∀ s ∈ scope', IsComponent s.toList) (h : scopeText scope = scopeText scope') :
    scope = scope' := by
  induction scope generalizing scope' with
  | nil =>
      cases scope' with
      | nil => rfl
      | cons s' rest' => simp [scopeText] at h
  | cons s rest ih =>
      cases scope' with
      | nil => simp [scopeText] at h
      | cons s' rest' =>
          obtain ⟨hs, hrest⟩ := List.forall_mem_cons.1 hscope
          obtain ⟨hs', hrest'⟩ := List.forall_mem_cons.1 hscope'
          rw [scopeText_cons, scopeText_cons, List.append_assoc, List.append_assoc] at h
          have heq : s.toList = s'.toList := by
            obtain ⟨more, hmore, htail⟩ | ⟨more, hmore, htail⟩ := List.append_eq_append_iff.1 h
            · rw [hmore, eq_nil_of_colons (hmore ▸ hs') hs htail, List.append_nil]
            · rw [hmore, eq_nil_of_colons (hmore ▸ hs) hs' htail, List.append_nil]
          rw [heq] at h
          rw [String.toList_inj.1 heq,
            ih hrest hrest' (List.append_cancel_left (List.append_cancel_left h))]

end LoadBridge.Name
