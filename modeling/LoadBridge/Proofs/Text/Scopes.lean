import LoadBridge.Proofs.Text.Pieces

/-!
# Text — Pieces between scope marks

`scopePieces` cuts a text at each `::` outside template brackets, the leftmost first: of three
colons the first two are the mark.  A text without a mark is one piece (`IsUnmarked`), and a mark
ends a piece that does not end in a colon itself (`EndsAtMark`).  Such pieces come back from the
text in which they stand one after the other (`scopePieces_intercalate`).  What is cut from a text,
however it is written, are such pieces (`areScopePieces_scopePieces`), and it stays so when empty
ones are left out (`AreScopePieces.filter`).
-/

namespace LoadBridge.Text

/-- No `::` of the text stands outside brackets, when `depth` of them are open before it. -/
def IsUnmarked : Nat → List Char → Prop
  | _, [] => True
  | depth, c :: rest =>
    ¬(depth = 0 ∧ [':', ':'] <+: c :: rest) ∧ IsUnmarked (Brackets.angle.after depth c) rest

/-- A `::` behind the text ends it: no mark stands in it or begins with its last character, and no
bracket is open behind it. -/
structure EndsAtMark (depth : Nat) (cs : List Char) : Prop where
  unmarked : IsUnmarked depth (cs ++ [':'])
  closed : Brackets.angle.afterText depth cs = 0

/-- Pieces that are cut from one text: a mark ends each but the last. -/
def AreScopePieces : Nat → List (List Char) → Prop
  | _, [] => False
  | depth, [p] => IsUnmarked depth p
  | depth, p :: q :: ps => EndsAtMark depth p ∧ AreScopePieces 0 (q :: ps)

variable {depth : Nat} {c : Char} {cs p rest : List Char} {ps : List (List Char)}

/-! ### One piece -/

theorem IsUnmarked.of_append (h : IsUnmarked depth (cs ++ rest)) : IsUnmarked depth cs := by
  induction cs generalizing depth with
  | nil => trivial
  | cons c cs ih =>
    obtain ⟨hc, hcs⟩ := h
    exact ⟨fun hmark => hc ⟨hmark.1, hmark.2.trans (List.prefix_append ..)⟩, ih hcs⟩

theorem scopePieces_cons (h : ¬(depth = 0 ∧ [':', ':'] <+: c :: rest)) :
    scopePieces depth (c :: rest) =
      (scopePieces (Brackets.angle.after depth c) rest).modifyHead (c :: ·) := by
  rw [scopePieces]
  rintro more rfl rfl rfl
  exact h ⟨rfl, more, rfl⟩

theorem IsUnmarked.scopePieces_eq (h : IsUnmarked depth cs) : scopePieces depth cs = [cs] := by
  induction cs generalizing depth with
  | nil => rw [scopePieces]
  | cons c cs ih => rw [scopePieces_cons h.1, ih h.2, List.modifyHead_cons]

/-- A mark ends the piece before it. -/
theorem EndsAtMark.scopePieces_append (h : EndsAtMark depth cs) (rest : List Char) :
    scopePieces depth (cs ++ ':' :: ':' :: rest) = cs :: scopePieces 0 rest := by
  induction cs generalizing depth with
  | nil =>
    obtain rfl : depth = 0 := h.closed
    rw [List.nil_append, scopePieces]
  | cons c cs ih =>
    obtain ⟨⟨hc, hcs⟩, hclosed⟩ := h
    rw [List.cons_append, scopePieces_cons, ih ⟨hcs, hclosed⟩, List.modifyHead_cons]
    -- the two characters that would be a mark are there when only one colon is behind the piece
    rintro ⟨hdepth, hmark⟩
    refine hc ⟨hdepth, List.prefix_of_prefix_length_le hmark ⟨':' :: rest, ?_⟩ ?_⟩
    · simp
    · simp

/-- A text without marks is one in which a bracket is open before each `::`. -/
theorem isUnmarked_iff : ∀ (depth : Nat) (cs : List Char), IsUnmarked depth cs ↔
    ∀ first, first ++ [':', ':'] <+: cs → Brackets.angle.afterText depth first ≠ 0
  | depth, [] => by simp [IsUnmarked]
  | depth, c :: cs => by
    rw [IsUnmarked, isUnmarked_iff (Brackets.angle.after depth c) cs]
    constructor
    · rintro ⟨hc, hcs⟩ first hfirst
      cases first with
      | nil => exact fun hdepth => hc ⟨hdepth, hfirst⟩
      | cons d first =>
        rw [List.cons_append, List.cons_prefix_cons] at hfirst
        obtain ⟨rfl, hfirst⟩ := hfirst
        exact hcs first hfirst
    · intro h
      refine ⟨fun hmark => h [] hmark.2 hmark.1, fun first hfirst => ?_⟩
      exact h (c :: first) (List.cons_prefix_cons.2 ⟨rfl, hfirst⟩)

/-! ### Pieces of one text -/

/-- **Pieces come back from the text in which they stand** with marks between them. -/
theorem scopePieces_intercalate (h : AreScopePieces depth ps) :
    scopePieces depth ([':', ':'].intercalate ps) = ps := by
  induction ps generalizing depth with
  | nil => exact h.elim
  | cons p ps ih =>
    cases ps with
    | nil =>
      rw [List.intercalate_singleton]
      exact IsUnmarked.scopePieces_eq h
    | cons q ps =>
      obtain ⟨hp, hrest⟩ := h
      rw [List.intercalate_cons_cons, List.append_assoc]
      exact (hp.scopePieces_append _).trans (congrArg _ (ih hrest))

theorem scopePieces_ne_nil (depth : Nat) (cs : List Char) : scopePieces depth cs ≠ [] := by
  fun_induction scopePieces depth cs with
  | case1 => exact List.cons_ne_nil _ _
  | case2 => exact List.cons_ne_nil _ _
  | case3 depth c rest _ ih => simpa using ih

theorem exists_scopePieces (depth : Nat) (cs : List Char) :
    ∃ p ps, scopePieces depth cs = p :: ps :=
  List.exists_cons_of_ne_nil (scopePieces_ne_nil depth cs)

/-- A text is its pieces with marks between them. -/
theorem intercalate_scopePieces (depth : Nat) (cs : List Char) :
    [':', ':'].intercalate (scopePieces depth cs) = cs := by
  fun_induction scopePieces depth cs with
  | case1 => rfl
  | case2 rest ih =>
    rw [List.intercalate_cons_of_ne_nil (scopePieces_ne_nil 0 rest), ih]
    rfl
  | case3 depth c rest _ ih =>
    obtain ⟨p, ps, hpieces⟩ := exists_scopePieces (Brackets.angle.after depth c) rest
    rw [hpieces] at ih ⊢
    cases ps <;> simpa [List.intercalate] using ih

/-- **What is cut from a text are pieces of one text**, whatever colons and brackets it has. -/
theorem areScopePieces_scopePieces (depth : Nat) (cs : List Char) :
    AreScopePieces depth (scopePieces depth cs) := by
  fun_induction scopePieces depth cs with
  | case1 => trivial
  | case2 rest ih =>
    obtain ⟨p, ps, hpieces⟩ := exists_scopePieces 0 rest
    rw [hpieces] at ih ⊢
    exact ⟨⟨⟨by decide, trivial⟩, rfl⟩, ih⟩
  | case3 depth c rest hc ih =>
    have hstart : ¬(depth = 0 ∧ [':', ':'] <+: c :: rest) := by
      rintro ⟨rfl, more, hmore⟩
      obtain ⟨rfl, rfl⟩ := List.cons.inj hmore
      exact hc more rfl rfl rfl
    have hwhole := intercalate_scopePieces (Brackets.angle.after depth c) rest
    obtain ⟨p, ps, hpieces⟩ := exists_scopePieces (Brackets.angle.after depth c) rest
    rw [hpieces] at ih hwhole ⊢
    -- the first piece, with the colon behind it if there is one, begins the rest of the text
    have hbegins (more : List Char) (h : more <+: rest) :
        ¬(depth = 0 ∧ [':', ':'] <+: c :: more) :=
      fun hmark => hstart ⟨hmark.1, hmark.2.trans (List.cons_prefix_cons.2 ⟨rfl, h⟩)⟩
    cases ps with
    | nil =>
      rw [List.intercalate_singleton] at hwhole
      exact ⟨hbegins p ⟨[], by rw [List.append_nil, hwhole]⟩, ih⟩
    | cons q ps =>
      rw [List.intercalate_cons_cons] at hwhole
      obtain ⟨hp, hps⟩ := ih
      refine ⟨⟨⟨hbegins _ ⟨':' :: [':', ':'].intercalate (q :: ps), ?_⟩, hp.unmarked⟩,
        hp.closed⟩, hps⟩
      rw [← hwhole]
      simp

/-- Pieces stay pieces of one text when empty ones are left out. -/
theorem AreScopePieces.filter (h : AreScopePieces 0 ps) :
    ps.filter (fun p => !p.isEmpty) = [] ∨ AreScopePieces 0 (ps.filter fun p => !p.isEmpty) := by
  induction ps with
  | nil => exact h.elim
  | cons p ps ih =>
    by_cases hp : p = []
    · rw [List.filter_cons_of_neg (by simp [hp])]
      cases ps with
      | nil => exact .inl rfl
      | cons q ps => exact ih h.2
    · rw [List.filter_cons_of_pos (by simpa using hp)]
      cases ps with
      | nil => exact .inr h
      | cons q ps =>
        obtain ⟨hends, hrest⟩ := h
        obtain hnone | hmore := ih hrest
        · rw [hnone]
          exact .inr hends.unmarked.of_append
        · obtain ⟨x, xs, hpieces⟩ : ∃ x xs, (q :: ps).filter (fun p => !p.isEmpty) = x :: xs := by
            refine List.exists_cons_of_ne_nil fun hnone => ?_
            rw [hnone] at hmore
            exact hmore
          rw [hpieces] at hmore ⊢
          exact .inr ⟨hends, hmore⟩

/-- Pieces have no characters but those of the text. -/
theorem subset_of_mem_scopePieces (depth : Nat) (cs : List Char) :
    ∀ p ∈ scopePieces depth cs, p ⊆ cs := by
  fun_induction scopePieces depth cs with
  | case1 => simp
  | case2 rest ih =>
    refine List.forall_mem_cons.2 ⟨List.nil_subset _, fun p hp => ?_⟩
    exact List.Subset.trans (ih p hp) fun c hc =>
      List.mem_cons_of_mem _ (List.mem_cons_of_mem _ hc)
  | case3 depth c rest _ ih =>
    obtain ⟨q, ps, hpieces⟩ := exists_scopePieces (Brackets.angle.after depth c) rest
    rw [hpieces] at ih ⊢
    obtain ⟨hq, hps⟩ := List.forall_mem_cons.1 ih
    refine List.forall_mem_cons.2 ⟨List.cons_subset_cons c hq, fun p hp => ?_⟩
    exact List.Subset.trans (hps p hp) (List.subset_cons_self c rest)

/-- Where no piece of a text is empty, the text does not start with a mark. -/
theorem dropScopeMarks_intercalate (h : AreScopePieces 0 ps) (hne : ∀ p ∈ ps, p ≠ []) :
    dropScopeMarks ([':', ':'].intercalate ps) = [':', ':'].intercalate ps := by
  rw [dropScopeMarks]
  intro rest heq
  have hpieces := scopePieces_intercalate h
  rw [heq, scopePieces] at hpieces
  exact hne [] (hpieces ▸ List.mem_cons_self) rfl

end LoadBridge.Text
