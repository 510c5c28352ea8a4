import LoadBridge.Text.Bracket
import LoadBridge.Proofs.Text.Balance
import Mathlib.Data.List.Induction
import Mathlib.Data.List.Infix

/-!
# Text — Pieces between commas

`commaPieces` cuts a text at the commas outside brackets.  A text without such a comma is one piece
(`IsPiece`), and pieces behind which no bracket is open come back from the text in which they stand
one after the other (`commaPieces_intercalate`).  What is cut is itself a list of such pieces
(`arePieces_commaPieces`), and it stays one when characters other than commas and brackets are put
in or taken out (`ArePieces.map`).
-/

namespace LoadBridge.Text

/-- The number of open brackets behind a text, when there were `depth` before it. -/
def Brackets.afterText (b : Brackets) (depth : Nat) (cs : List Char) : Nat := cs.foldl b.after depth

/-- Whether a character has a part in the cutting: a comma or a bracket. -/
def Brackets.isMark (b : Brackets) (c : Char) : Bool := c == ',' || b.opens c || b.closes c

/-- No comma of the text stands outside brackets, when `depth` of them are open before it. -/
def IsPiece (b : Brackets) : Nat → List Char → Prop
  | _, [] => True
  | depth, c :: rest => ¬(c = ',' ∧ depth = 0) ∧ IsPiece b (b.after depth c) rest

/-- Pieces that are cut from one text: no bracket is open behind each but the last. -/
def ArePieces (b : Brackets) : Nat → List (List Char) → Prop
  | _, [] => False
  | depth, [p] => IsPiece b depth p
  | depth, p :: q :: ps => IsPiece b depth p ∧ b.afterText depth p = 0 ∧ ArePieces b 0 (q :: ps)

variable {b : Brackets} {depth : Nat} {c : Char} {cs p rest : List Char} {ps : List (List Char)}

/-! ### One piece -/

theorem Brackets.after_of_not_isMark (hc : b.isMark c = false) : b.after depth c = depth := by
  simp only [isMark, Bool.or_eq_false_iff] at hc
  rw [after, if_neg (by simp [hc]), if_neg (by simp [hc])]

/-- The cutting does not see characters that are no marks. -/
theorem isPiece_filter (b : Brackets) : ∀ (depth : Nat) (cs : List Char),
    (IsPiece b depth (cs.filter b.isMark) ↔ IsPiece b depth cs) ∧
      b.afterText depth (cs.filter b.isMark) = b.afterText depth cs
  | _, [] => ⟨Iff.rfl, rfl⟩
  | depth, c :: cs => by
    cases hc : b.isMark c with
    | true =>
      rw [List.filter_cons_of_pos hc, IsPiece, IsPiece, (isPiece_filter b (b.after depth c) cs).1]
      exact ⟨Iff.rfl, (isPiece_filter b (b.after depth c) cs).2⟩
    | false =>
      have hne : c ≠ ',' := fun h => by simp [Brackets.isMark, h] at hc
      rw [List.filter_cons_of_neg (by simp [hc]), IsPiece, (isPiece_filter b depth cs).1,
        (isPiece_filter b depth cs).2, Brackets.afterText, Brackets.afterText, List.foldl_cons,
        Brackets.after_of_not_isMark hc]
      exact ⟨(and_iff_right fun h => hne h.1).symm, rfl⟩

/-- A text without marks is a piece, wherever it stands. -/
theorem isPiece_of_not_isMark (h : ∀ c ∈ cs, b.isMark c = false) :
    IsPiece b depth cs ∧ b.afterText depth cs = depth := by
  have hnone : cs.filter b.isMark = [] := List.filter_eq_nil_iff.2 (by simpa using h)
  have hsame := isPiece_filter b depth cs
  rw [hnone] at hsame
  exact ⟨hsame.1.1 trivial, hsame.2.symm⟩

/-- A piece goes before the first of the pieces behind it. -/
theorem IsPiece.commaPieces_append (h : IsPiece b depth p) (rest : List Char) :
    commaPieces b depth (p ++ rest) =
      (commaPieces b (b.afterText depth p) rest).modifyHead (p ++ ·) := by
  induction p generalizing depth with
  | nil => exact (congrFun List.modifyHead_id _).symm
  | cons c p ih =>
    rw [List.cons_append, commaPieces, if_neg h.1, ih h.2, List.modifyHead_modifyHead]
    rfl

theorem IsPiece.commaPieces_eq (h : IsPiece b depth p) : commaPieces b depth p = [p] := by
  have := h.commaPieces_append []
  rwa [List.append_nil, commaPieces, List.modifyHead_cons, List.append_nil] at this

/-- A comma behind a piece ends it, where no bracket is open. -/
theorem IsPiece.commaPieces_append_comma (h : IsPiece b depth p) (hclosed : b.afterText depth p = 0)
    (rest : List Char) :
    commaPieces b depth (p ++ ',' :: rest) = p :: commaPieces b 0 rest := by
  rw [h.commaPieces_append, hclosed, commaPieces, if_pos ⟨rfl, rfl⟩, List.modifyHead_cons,
    List.append_nil]

/-- Text without marks at the end goes to the last piece. -/
theorem commaPieces_append_of_not_isMark (h : ∀ c ∈ rest, b.isMark c = false) :
    ∀ (depth : Nat) (cs : List Char), ∃ first last,
      commaPieces b depth cs = first ++ [last] ∧
      commaPieces b depth (cs ++ rest) = first ++ [last ++ rest]
  | depth, [] => ⟨[], [], rfl, (isPiece_of_not_isMark h).1.commaPieces_eq⟩
  | depth, c :: cs => by
    rw [List.cons_append, commaPieces, commaPieces]
    split
    · obtain ⟨first, last, heq, heq'⟩ := commaPieces_append_of_not_isMark h 0 cs
      exact ⟨[] :: first, last, by rw [heq, List.cons_append], by rw [heq', List.cons_append]⟩
    · obtain ⟨first, last, heq, heq'⟩ := commaPieces_append_of_not_isMark h (b.after depth c) cs
      rw [heq, heq']
      cases first with
      | nil => exact ⟨[], c :: last, rfl, rfl⟩
      | cons q first => exact ⟨(c :: q) :: first, last, rfl, rfl⟩

/-! ### Pieces of one text -/

/-- A space before a piece takes no part in the cutting. -/
theorem ArePieces.cons_space (hspace : b.isMark ' ' = false) (h : ArePieces b depth (p :: ps)) :
    ArePieces b depth ((' ' :: p) :: ps) := by
  have hpiece : IsPiece b depth p → IsPiece b depth (' ' :: p) := fun hp =>
    ⟨fun h => absurd h.1 (by decide), by rwa [Brackets.after_of_not_isMark hspace]⟩
  cases ps with
  | nil => exact hpiece h
  | cons q ps =>
    obtain ⟨hp, hclosed, hrest⟩ := h
    refine ⟨hpiece hp, ?_, hrest⟩
    rwa [Brackets.afterText, List.foldl_cons, Brackets.after_of_not_isMark hspace]

/-- **Pieces come back from the text in which they are listed.**  Each but the first has the space
before it that stands behind the comma. -/
theorem commaPieces_intercalate (hspace : b.isMark ' ' = false) (h : ArePieces b depth (p :: ps)) :
    commaPieces b depth ([',', ' '].intercalate (p :: ps)) = p :: ps.map (' ' :: ·) := by
  induction ps generalizing depth p with
  | nil => rw [List.intercalate_singleton, IsPiece.commaPieces_eq h, List.map_nil]
  | cons q ps ih =>
    obtain ⟨hp, hclosed, hrest⟩ := h
    have hlist : [',', ' '].intercalate (p :: q :: ps) =
        p ++ ',' :: [',', ' '].intercalate ((' ' :: q) :: ps) := by
      cases ps <;> simp [List.intercalate]
    rw [hlist, hp.commaPieces_append_comma hclosed, ih (hrest.cons_space hspace), List.map_cons]

/-- A text is its pieces with commas between them. -/
theorem intercalate_commaPieces (b : Brackets) :
    ∀ (depth : Nat) (cs : List Char), [','].intercalate (commaPieces b depth cs) = cs
  | _, [] => rfl
  | depth, c :: rest => by
    rw [commaPieces]
    split
    · next h =>
      rw [List.intercalate_cons_of_ne_nil (commaPieces_ne_nil b 0 rest),
        intercalate_commaPieces b 0 rest, h.1]
      rfl
    · have ih := intercalate_commaPieces b (b.after depth c) rest
      obtain ⟨q, ps, hpieces⟩ :=
        List.exists_cons_of_ne_nil (commaPieces_ne_nil b (b.after depth c) rest)
      rw [hpieces] at ih ⊢
      cases ps <;> simpa [List.intercalate] using ih

/-- A comma where no bracket is open cuts a text in two, each of which is cut by itself. -/
theorem commaPieces_append_comma (hcomma : b.after 0 ',' = 0) (hclosed : b.afterText depth cs = 0)
    (rest : List Char) :
    commaPieces b depth (cs ++ ',' :: rest) = commaPieces b depth cs ++ commaPieces b 0 rest := by
  induction cs generalizing depth with
  | nil =>
    obtain rfl : depth = 0 := hclosed
    simp [commaPieces]
  | cons c cs ih =>
    rw [List.cons_append, commaPieces, commaPieces]
    split
    · next h =>
      obtain ⟨rfl, rfl⟩ := h
      have hrest : b.afterText 0 cs = 0 := by
        rwa [Brackets.afterText, List.foldl_cons, hcomma] at hclosed
      rw [ih hrest, List.cons_append]
    · obtain ⟨q, ps, hpieces⟩ :=
        List.exists_cons_of_ne_nil (commaPieces_ne_nil b (b.after depth c) cs)
      rw [ih hclosed, hpieces, List.cons_append, List.modifyHead_cons, List.modifyHead_cons,
        List.cons_append]

/-- What is cut from a text are pieces of one text. -/
theorem arePieces_commaPieces (b : Brackets) :
    ∀ (depth : Nat) (cs : List Char), ArePieces b depth (commaPieces b depth cs)
  | _, [] => trivial
  | depth, c :: rest => by
    rw [commaPieces]
    split
    · next h =>
      have ih := arePieces_commaPieces b 0 rest
      obtain ⟨q, ps, hpieces⟩ := List.exists_cons_of_ne_nil (commaPieces_ne_nil b 0 rest)
      rw [hpieces] at ih ⊢
      exact ⟨trivial, h.2, ih⟩
    · next h =>
      have ih := arePieces_commaPieces b (b.after depth c) rest
      obtain ⟨q, ps, hpieces⟩ :=
        List.exists_cons_of_ne_nil (commaPieces_ne_nil b (b.after depth c) rest)
      rw [hpieces] at ih ⊢
      cases ps with
      | nil => exact ⟨h, ih⟩
      | cons => exact ⟨⟨h, ih.1⟩, ih.2⟩

/-- A text is one piece exactly where it is not cut. -/
theorem isPiece_iff_length : IsPiece b depth cs ↔ (commaPieces b depth cs).length = 1 := by
  refine ⟨fun h => by rw [h.commaPieces_eq, List.length_singleton], fun h => ?_⟩
  obtain ⟨p, hp⟩ := List.length_eq_one_iff.1 h
  have hpieces := arePieces_commaPieces b depth cs
  have hwhole := intercalate_commaPieces b depth cs
  rw [hp] at hpieces hwhole
  rw [List.intercalate_singleton] at hwhole
  exact hwhole ▸ hpieces

/-- Pieces stay pieces when other characters than marks are changed in them. -/
theorem ArePieces.map {f : List Char → List Char}
    (hf : ∀ p ∈ ps, (f p).filter b.isMark = p.filter b.isMark) (h : ArePieces b depth ps) :
    ArePieces b depth (ps.map f) := by
  have hpiece : ∀ (depth : Nat), ∀ p ∈ ps, (IsPiece b depth (f p) ↔ IsPiece b depth p) ∧
      b.afterText depth (f p) = b.afterText depth p := fun depth p hp => by
    rw [← (isPiece_filter b depth (f p)).1, ← (isPiece_filter b depth (f p)).2, hf p hp]
    exact isPiece_filter b depth p
  induction ps generalizing depth with
  | nil => exact h
  | cons p ps ih =>
    obtain ⟨hp, hps⟩ := List.forall_mem_cons.1 hf
    have hsame := hpiece depth p List.mem_cons_self
    cases ps with
    | nil => exact hsame.1.2 h
    | cons q ps =>
      obtain ⟨hhead, hclosed, hrest⟩ := h
      exact ⟨hsame.1.2 hhead, hsame.2.trans hclosed,
        ih hps hrest fun depth p hp => hpiece depth p (List.mem_cons_of_mem _ hp)⟩

/-! ### Balanced texts -/

/-- Where no more brackets are closed than opened before, as many are open as are not closed yet. -/
theorem Brackets.afterText_add_countP (hb : ∀ c, b.opens c = true → b.closes c = false)
    (h : ∀ first, first <+: cs → first.countP b.closes ≤ first.countP b.opens) :
    b.afterText 0 cs + cs.countP b.closes = cs.countP b.opens := by
  induction cs using List.reverseRecOn with
  | nil => rfl
  | append_singleton cs c ih =>
    have ih := ih fun first hfirst => h first (hfirst.trans (List.prefix_append ..))
    have hle := h _ List.prefix_rfl
    have hafter : b.afterText 0 (cs ++ [c]) = b.after (b.afterText 0 cs) c := List.foldl_append ..
    rw [hafter, after]
    simp only [List.countP_append, List.countP_singleton] at hle ⊢
    cases ho : b.opens c with
    | true =>
      simp only [hb c ho, if_true, Bool.false_eq_true, if_false]
      omega
    | false =>
      cases hc : b.closes c <;>
        simp only [ho, hc, if_true, Bool.false_eq_true, if_false] at hle ⊢ <;> omega

theorem afterText_angle (h : ∀ first, first <+: cs → first.count '>' ≤ first.count '<') :
    Brackets.angle.afterText 0 cs + cs.count '>' = cs.count '<' := by
  refine Brackets.afterText_add_countP (fun c hc => ?_) h
  obtain rfl : c = '<' := beq_iff_eq.1 hc
  rfl

theorem countP_or_beq {x y : Char} (hne : x ≠ y) (cs : List Char) :
    cs.countP (fun c => c == x || c == y) = cs.count x + cs.count y := by
  induction cs with
  | nil => rfl
  | cons c cs ih =>
    simp only [List.countP_cons, List.count_cons, ih, Bool.or_eq_true, beq_iff_eq]
    grind

theorem afterText_call (hangle : ∀ first, first <+: cs → first.count '>' ≤ first.count '<')
    (hparen : ∀ first, first <+: cs → first.count ')' ≤ first.count '(') :
    Brackets.call.afterText 0 cs + (cs.count '>' + cs.count ')') =
      cs.count '<' + cs.count '(' := by
  have hopens := countP_or_beq (show '<' ≠ '(' by decide)
  have hcloses := countP_or_beq (show '>' ≠ ')' by decide)
  rw [← hopens, ← hcloses]
  refine Brackets.afterText_add_countP (fun c hc => ?_) fun first hfirst => ?_
  · simp only [Brackets.call, Bool.or_eq_true, beq_iff_eq] at hc ⊢
    rcases hc with rfl | rfl <;> rfl
  · calc first.countP Brackets.call.closes
        = first.count '>' + first.count ')' := hcloses first
      _ ≤ first.count '<' + first.count '(' :=
          Nat.add_le_add (hangle first hfirst) (hparen first hfirst)
      _ = first.countP Brackets.call.opens := (hopens first).symm

/-- No comma of a piece stands where no bracket is open. -/
theorem isPiece_iff (b : Brackets) : ∀ (depth : Nat) (cs : List Char), IsPiece b depth cs ↔
    ∀ first, first ++ [','] <+: cs → b.afterText depth first ≠ 0
  | depth, [] => by simp [IsPiece]
  | depth, c :: cs => by
    rw [IsPiece, isPiece_iff b (b.after depth c) cs]
    constructor
    · rintro ⟨hc, hcs⟩ first hfirst
      cases first with
      | nil =>
        obtain ⟨rfl, -⟩ := List.cons_prefix_cons.1 hfirst
        exact fun h => hc ⟨rfl, h⟩
      | cons d first =>
        rw [List.cons_append, List.cons_prefix_cons] at hfirst
        obtain ⟨rfl, hfirst⟩ := hfirst
        exact hcs first hfirst
    · intro h
      refine ⟨?_, fun first hfirst => h (c :: first) (List.cons_prefix_cons.2 ⟨rfl, hfirst⟩)⟩
      rintro ⟨rfl, hdepth⟩
      exact h [] (List.cons_prefix_cons.2 ⟨rfl, List.nil_prefix⟩) hdepth

/-- A text that can be one of several between commas: template brackets and parentheses are
balanced, and every comma stands inside one of them. -/
structure IsArgument (cs : List Char) : Prop where
  angle : Balanced '<' '>' cs
  paren : Balanced '(' ')' cs
  comma : ∀ first, first ++ [','] <+: cs →
    first.count '>' < first.count '<' ∨ first.count ')' < first.count '('

/-- Only the beginnings of a text are to be looked at. -/
instance (cs : List Char) : Decidable (IsArgument cs) :=
  decidable_of_iff (Balanced '<' '>' cs ∧ Balanced '(' ')' cs ∧
      ∀ first ∈ cs.inits, first ++ [','] <+: cs →
        first.count '>' < first.count '<' ∨ first.count ')' < first.count '(')
    ⟨fun h => ⟨h.1, h.2.1, fun first hfirst =>
        h.2.2 first ((List.mem_inits _ _).2 ((List.prefix_append ..).trans hfirst)) hfirst⟩,
      fun h => ⟨h.angle, h.paren, fun first _ => h.comma first⟩⟩

namespace IsArgument

theorem isPiece (h : IsArgument cs) : IsPiece .call 0 cs := by
  refine (isPiece_iff _ _ _).2 fun first hfirst => ?_
  have hprefix : first <+: cs := (List.prefix_append ..).trans hfirst
  have hopen := afterText_call (fun _ h' => h.angle.count_le _ (h'.trans hprefix))
    (fun _ h' => h.paren.count_le _ (h'.trans hprefix))
  have hangle := h.angle.count_le first hprefix
  have hparen := h.paren.count_le first hprefix
  have hcomma := h.comma first hfirst
  omega

theorem afterText_eq (h : IsArgument cs) : Brackets.call.afterText 0 cs = 0 := by
  have hopen := afterText_call h.angle.count_le h.paren.count_le
  rw [h.angle.count_eq, h.paren.count_eq] at hopen
  omega

/-- Arguments are pieces of the text in which they are listed. -/
theorem arePieces (hps : ∀ q ∈ p :: ps, IsArgument q) : ArePieces .call 0 (p :: ps) := by
  induction ps generalizing p with
  | nil => exact (hps p List.mem_cons_self).isPiece
  | cons q ps ih =>
    obtain ⟨hp, hps⟩ := List.forall_mem_cons.1 hps
    exact ⟨hp.isPiece, hp.afterText_eq, ih hps⟩

end IsArgument

end LoadBridge.Text
