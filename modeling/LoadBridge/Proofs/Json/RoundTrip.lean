import Mathlib.Data.List.DropRight
import LoadBridge.Json.Parser
import LoadBridge.Proofs.Json.Lexeme

/-!
# JSON — Written values are read back

A value is *plain* when its numbers are natural and fit sixty-four bits.  A plain value that is not
nested too deep is read back from its written form (`parseWanted?_pretty`): each item and field is
read up to the mark after it, and the reader's fuel is twice the length of what it reads.
-/

namespace LoadBridge.Json

/-- A value whose numbers are natural and fit sixty-four bits, with at most `depth` containers
inside one another. -/
inductive Plain : (depth : Nat) → Json → Prop where
  | null {depth : Nat} : Plain depth .null
  | bool {depth : Nat} (b : Bool) : Plain depth (.bool b)
  | nat {depth n : Nat} (fits : n < UInt64.size) : Plain depth (.nat n)
  | str {depth : Nat} (s : String) : Plain depth (.str s)
  | arr {depth : Nat} {items : List Json} (each : ∀ j ∈ items, Plain depth j) :
      Plain (depth + 1) (.arr items)
  | obj {depth : Nat} {fields : List (String × Json)} (each : ∀ f ∈ fields, Plain depth f.2) :
      Plain (depth + 1) (.obj fields)

theorem Plain.list {α : Type} {encode : α → Json} {depth : Nat} (h : ∀ a, Plain depth (encode a))
    (as : List α) : Plain (depth + 1) (.arr (as.map encode)) := by
  refine .arr fun j hj => ?_
  obtain ⟨a, -, rfl⟩ := List.mem_map.1 hj
  exact h a

theorem Plain.strs {depth : Nat} (xs : List String) : Plain (depth + 1) (strs xs) := .list .str xs

theorem Plain.option {α : Type} {encode : α → Json} {depth : Nat}
    (h : ∀ a, Plain depth (encode a)) (o : Option α) : Plain depth (ofOption encode o) := by
  cases o with
  | none => exact .null
  | some a => exact h a

/-! ### Blanks -/

variable {gap rest : List Char} {fuel room : Nat} {wanted : String → Bool}

theorem skipGap_append (hgap : ∀ g ∈ gap, isGap g = true) (rest : List Char) :
    skipGap (gap ++ rest) = skipGap rest :=
  List.dropWhile_append_of_pos hgap

theorem skipGap_cons {c : Char} (hc : isGap c = false) : skipGap (c :: rest) = c :: rest :=
  List.dropWhile_cons_of_neg (by simp [hc])

theorem skipGap_skipGap (cs : List Char) : skipGap (skipGap cs) = skipGap cs :=
  List.dropWhile_idempotent isGap cs

theorem toList_margin (level : Nat) :
    (margin level).toList = '\n' :: List.replicate (2 * level) ' ' := by
  simp [margin, Text.spaces]

theorem isGap_of_mem_margin (level : Nat) : ∀ c ∈ (margin level).toList, isGap c = true := by
  intro c h
  rw [toList_margin] at h
  rcases List.mem_cons.1 h with rfl | h
  · rfl
  · rw [List.eq_of_mem_replicate h]
    rfl

theorem endsNumber_margin (level : Nat) (rest : List Char) :
    EndsNumber ((margin level).toList ++ rest) := by
  rw [toList_margin]
  rintro c hc
  obtain rfl := Option.some.inj hc
  decide

theorem value?_skipGap (fuel room : Nat) (wanted : String → Bool) (cs : List Char) :
    value? fuel room wanted (skipGap cs) = value? fuel room wanted cs := by
  cases fuel with
  | zero => rfl
  | succ fuel => rw [value?, value?, skipGap_skipGap]

theorem items?_skipGap (fuel room : Nat) (cs : List Char) :
    items? fuel room (skipGap cs) = items? fuel room cs := by
  cases fuel with
  | zero => rfl
  | succ fuel => rw [items?, items?, value?_skipGap]

theorem fields?_skipGap (fuel room : Nat) (wanted : String → Bool) (cs : List Char) :
    fields? fuel room wanted (skipGap cs) = fields? fuel room wanted cs := by
  cases fuel with
  | zero => rfl
  | succ fuel => rw [fields?, fields?, skipGap_skipGap]

/-- Blanks before a value are passed over. -/
theorem value?_append (hgap : ∀ g ∈ gap, isGap g = true) (cs : List Char) :
    value? fuel room wanted (gap ++ cs) = value? fuel room wanted cs := by
  rw [← value?_skipGap, skipGap_append hgap, value?_skipGap]

/-- Blanks before the fields of an object are passed over. -/
theorem fields?_append (hgap : ∀ g ∈ gap, isGap g = true) (cs : List Char) :
    fields? fuel room wanted (gap ++ cs) = fields? fuel room wanted cs := by
  rw [← fields?_skipGap, skipGap_append hgap, fields?_skipGap]

/-! ### Values -/

/-- The value is read from its written form before anything that does not belong to a number,
wherever there is room for its containers and fuel for its characters. -/
def ReadsBack (depth : Nat) (j : Json) : Prop :=
  ∀ (level fuel room : Nat) (wanted : String → Bool) (rest : List Char), depth < room →
    2 * (prettyAt level j).toList.length ≤ fuel → EndsNumber rest →
    (∀ fields, j = .obj fields → ∀ f ∈ fields, wanted f.1 = true) →
    value? fuel room wanted ((prettyAt level j).toList ++ rest) = some (j, rest)

theorem toList_quoted (s : String) :
    (quoted s).toList = '"' :: (s.toList.flatMap escapeChar ++ ['"']) := by
  simp [quoted]

theorem readsBack_null (depth : Nat) : ReadsBack depth .null := by
  intro level fuel room wanted rest _ hfuel _ _
  cases fuel with
  | zero => simp [prettyAt] at hfuel
  | succ fuel => simp [prettyAt, value?, skipGap_cons, isGap]

theorem readsBack_bool (depth : Nat) (b : Bool) : ReadsBack depth (.bool b) := by
  intro level fuel room wanted rest _ hfuel _ _
  cases fuel with
  | zero => cases b <;> simp [prettyAt] at hfuel
  | succ fuel => cases b <;> simp [prettyAt, value?, skipGap_cons, isGap]

theorem readsBack_str (depth : Nat) (s : String) : ReadsBack depth (.str s) := by
  intro level fuel room wanted rest _ hfuel _ _
  cases fuel with
  | zero => simp [prettyAt, toList_quoted] at hfuel
  | succ fuel =>
      have htext : (prettyAt level (.str s)).toList ++ rest =
          '"' :: (s.toList.flatMap escapeChar ++ '"' :: rest) := by
        simp [prettyAt, toList_quoted]
      rw [htext, value?, skipGap_cons rfl]
      simp only [string?_quoted, Option.map_some]

theorem ne_of_isDigit {c d : Char} (hc : c.isDigit = true) (hd : d.isDigit = false) : c ≠ d := by
  rintro rfl
  exact Bool.false_ne_true (hd.symm.trans hc)

theorem isGap_of_isDigit {c : Char} (hc : c.isDigit = true) : isGap c = false := by
  simp [isGap, ne_of_isDigit hc]

/-- A digit starts no token but a number. -/
theorem value?_digit {c : Char} (hc : c.isDigit = true) :
    value? (fuel + 1) room wanted (c :: rest) = number? (c :: rest) := by
  rw [value?, skipGap_cons (isGap_of_isDigit hc)]
  split
  iterate 6 · next h => exact absurd (List.cons.inj h).1 (ne_of_isDigit hc rfl)
  rfl

theorem exists_cons_nat (level n : Nat) :
    ∃ c cs, (prettyAt level (.nat n)).toList = c :: cs ∧ c.isDigit = true := by
  have htext : (prettyAt level (.nat n)).toList = Nat.toDigits 10 n := by
    rw [← Nat.toList_repr]
    rfl
  obtain ⟨c, cs, hcons⟩ := List.exists_cons_of_ne_nil (Nat.toDigits_ne_nil (b := 10) (n := n))
  exact ⟨c, cs, htext.trans hcons,
    Nat.isDigit_of_mem_toDigits (by omega) (by omega) (hcons ▸ List.mem_cons_self)⟩

theorem readsBack_nat {depth n : Nat} (fits : n < UInt64.size) : ReadsBack depth (.nat n) := by
  intro level fuel room wanted rest _ hfuel hends _
  have hnumber : number? ((prettyAt level (.nat n)).toList ++ rest) = _ := number?_repr fits hends
  obtain ⟨c, cs, hcons, hdigit⟩ := exists_cons_nat level n
  rw [hcons] at hfuel hnumber ⊢
  cases fuel with
  | zero => simp at hfuel
  | succ fuel => exact (value?_digit hdigit).trans hnumber

/-! ### Containers -/

/-- A written value starts with a character that neither is blank nor closes an array. -/
theorem exists_cons_prettyAt {depth : Nat} {j : Json} (h : Plain depth j) (level : Nat) :
    ∃ c cs, (prettyAt level j).toList = c :: cs ∧ isGap c = false ∧ c ≠ ']' := by
  cases h with
  | null => simp [prettyAt, isGap]
  | bool b => cases b <;> simp [prettyAt, isGap]
  | @nat _ n fits =>
      obtain ⟨c, cs, hcons, hdigit⟩ := exists_cons_nat level n
      exact ⟨c, cs, hcons, isGap_of_isDigit hdigit, ne_of_isDigit hdigit rfl⟩
  | str s => simp [prettyAt, toList_quoted, isGap]
  | @arr _ items each => cases items <;> simp [prettyAt, isGap]
  | @obj _ fields each => cases fields <;> simp [prettyAt, isGap]

theorem items?_last {cs : List Char} {j : Json} (hgap : ∀ g ∈ gap, isGap g = true)
    (hvalue : value? fuel room every cs = some (j, gap ++ ']' :: rest)) :
    items? (fuel + 1) room cs = some ([j], rest) := by
  rw [items?, hvalue]
  simp [skipGap_append hgap, skipGap_cons, isGap]

theorem items?_more {cs more : List Char} {j : Json} {items : List Json}
    (hvalue : value? fuel room every cs = some (j, ',' :: more))
    (hmore : items? fuel room more = some (items, rest)) :
    items? (fuel + 1) room cs = some (j :: items, rest) := by
  rw [items?, hvalue]
  simp [hmore, skipGap_cons, isGap]

/-- **Items that are read back one by one are read back in their array.** -/
theorem items?_prettyItems {depth level : Nat} {items : List Json} (hne : items ≠ [])
    (each : ∀ j ∈ items, ReadsBack depth j) (hroom : depth < room)
    (hfuel : 2 * (prettyItems level items).toList.length ≤ fuel) (rest : List Char) :
    items? fuel room ((prettyItems level items).toList ++ ((margin level).toList ++ ']' :: rest)) =
      some (items, rest) := by
  have hmargin : 1 ≤ (margin (level + 1)).toList.length := by simp [toList_margin]
  induction items generalizing fuel with
  | nil => exact absurd rfl hne
  | cons j items ih =>
      obtain ⟨hj, hitems⟩ := List.forall_mem_cons.1 each
      cases items with
      | nil =>
          simp only [prettyItems, String.toList_append, List.length_append] at hfuel ⊢
          obtain ⟨fuel, rfl⟩ : ∃ n, fuel = n + 1 := ⟨fuel - 1, by omega⟩
          refine items?_last (isGap_of_mem_margin level) ?_
          rw [List.append_assoc, value?_append (isGap_of_mem_margin _)]
          exact hj (level + 1) fuel room every _ hroom (by omega) (endsNumber_margin _ _)
            fun _ _ _ _ => rfl
      | cons k items =>
          have htext : (prettyItems level (j :: k :: items)).toList =
              (margin (level + 1)).toList ++ ((prettyAt (level + 1) j).toList ++
                ',' :: (prettyItems level (k :: items)).toList) := by
            simp [prettyItems]
          rw [htext] at hfuel ⊢
          simp only [List.length_append, List.length_cons] at hfuel
          obtain ⟨fuel, rfl⟩ : ∃ n, fuel = n + 1 := ⟨fuel - 1, by omega⟩
          refine items?_more ?_ (ih (List.cons_ne_nil _ _) hitems (by omega))
          rw [List.append_assoc, value?_append (isGap_of_mem_margin _), List.append_assoc]
          exact hj (level + 1) fuel room every _ hroom (by omega) (by simp [EndsNumber])
            fun _ _ _ _ => rfl

theorem value?_space (fuel room : Nat) (cs : List Char) :
    value? fuel room every (' ' :: cs) = value? fuel room every cs :=
  value?_append (by simp [isGap] : ∀ g ∈ [' '], isGap g = true) cs

theorem fields?_last {cs : List Char} {k : String} {j : Json} (hk : wanted k = true)
    (hgap : ∀ g ∈ gap, isGap g = true)
    (hvalue : value? fuel room every cs = some (j, gap ++ '\x7d' :: rest)) :
    fields? (fuel + 1) room wanted ((quoted k).toList ++ ':' :: ' ' :: cs) =
      some ([(k, j)], rest) := by
  rw [fields?, toList_quoted, List.cons_append, skipGap_cons rfl]
  simp [string?_quoted, hk, value?_space, hvalue, skipGap_append hgap, skipGap_cons, isGap]

theorem fields?_more {cs more : List Char} {k : String} {j : Json} {fields : List (String × Json)}
    (hk : wanted k = true) (hvalue : value? fuel room every cs = some (j, ',' :: more))
    (hmore : fields? fuel room wanted more = some (fields, rest)) :
    fields? (fuel + 1) room wanted ((quoted k).toList ++ ':' :: ' ' :: cs) =
      some ((k, j) :: fields, rest) := by
  rw [fields?, toList_quoted, List.cons_append, skipGap_cons rfl]
  simp [string?_quoted, hk, value?_space, hvalue, hmore, skipGap_cons, isGap]

/-- **Fields that are read back one by one are read back in their object**, if all of them are
wanted. -/
theorem fields?_prettyFields {depth level : Nat} {fields : List (String × Json)} (hne : fields ≠ [])
    (each : ∀ f ∈ fields, ReadsBack depth f.2) (hwanted : ∀ f ∈ fields, wanted f.1 = true)
    (hroom : depth < room) (hfuel : 2 * (prettyFields level fields).toList.length ≤ fuel)
    (rest : List Char) :
    fields? fuel room wanted
      ((prettyFields level fields).toList ++ ((margin level).toList ++ '\x7d' :: rest)) =
        some (fields, rest) := by
  induction fields generalizing fuel with
  | nil => exact absurd rfl hne
  | cons f fields ih =>
      obtain ⟨k, j⟩ := f
      have hj : ReadsBack depth j := each (k, j) List.mem_cons_self
      have hfields := (List.forall_mem_cons.1 each).2
      obtain ⟨hk, hothers⟩ := List.forall_mem_cons.1 hwanted
      cases fields with
      | nil =>
          have htext : (prettyFields level [(k, j)]).toList = (margin (level + 1)).toList ++
              ((quoted k).toList ++ ':' :: ' ' :: (prettyAt (level + 1) j).toList) := by
            simp [prettyFields]
          rw [htext] at hfuel ⊢
          simp only [List.length_append, List.length_cons] at hfuel
          obtain ⟨fuel, rfl⟩ : ∃ n, fuel = n + 1 := ⟨fuel - 1, by omega⟩
          simp only [List.append_assoc, List.cons_append]
          rw [fields?_append (isGap_of_mem_margin _)]
          refine fields?_last hk (isGap_of_mem_margin level) ?_
          exact hj (level + 1) fuel room every _ hroom (by omega) (endsNumber_margin _ _)
            fun _ _ _ _ => rfl
      | cons g fields =>
          have htext : (prettyFields level ((k, j) :: g :: fields)).toList =
              (margin (level + 1)).toList ++ ((quoted k).toList ++ ':' :: ' ' ::
                ((prettyAt (level + 1) j).toList ++
                  ',' :: (prettyFields level (g :: fields)).toList)) := by
            simp [prettyFields]
          rw [htext] at hfuel ⊢
          simp only [List.length_append, List.length_cons] at hfuel
          obtain ⟨fuel, rfl⟩ : ∃ n, fuel = n + 1 := ⟨fuel - 1, by omega⟩
          simp only [List.append_assoc, List.cons_append]
          rw [fields?_append (isGap_of_mem_margin _)]
          refine fields?_more hk ?_ (ih (List.cons_ne_nil _ _) hfields hothers (by omega))
          exact hj (level + 1) fuel room every _ hroom (by omega) (by simp [EndsNumber])
            fun _ _ _ _ => rfl

theorem value?_items {cs more : List Char} {c : Char} {items : List Json} (hroom : 1 < room)
    (hskip : skipGap cs = c :: more) (hc : c ≠ ']')
    (hitems : items? fuel (room - 1) cs = some (items, rest)) :
    value? (fuel + 1) room wanted ('[' :: cs) = some (.arr items, rest) := by
  rw [← items?_skipGap, hskip] at hitems
  rw [value?, skipGap_cons rfl]
  simp [Nat.not_le.2 hroom, hskip, hc, hitems]

theorem value?_fields {cs more : List Char} {c : Char} {fields : List (String × Json)}
    (hroom : 1 < room) (hskip : skipGap cs = c :: more) (hc : c ≠ '\x7d')
    (hfields : fields? fuel (room - 1) wanted cs = some (fields, rest)) :
    value? (fuel + 1) room wanted ('\x7b' :: cs) = some (.obj fields, rest) := by
  rw [← fields?_skipGap, hskip] at hfields
  rw [value?, skipGap_cons rfl]
  simp [Nat.not_le.2 hroom, hskip, hc, hfields]

theorem exists_skipGap_prettyItems {depth : Nat} {j : Json} (h : Plain depth j) (level : Nat)
    (items : List Json) (rest : List Char) : ∃ c, c ≠ ']' ∧ ∃ more,
      skipGap ((prettyItems level (j :: items)).toList ++ rest) = c :: more := by
  obtain ⟨c, cs, hcons, hgap, hc⟩ := exists_cons_prettyAt h (level + 1)
  refine ⟨c, hc, ?_⟩
  cases items <;>
    simp [prettyItems, hcons, skipGap_append (isGap_of_mem_margin _), skipGap_cons hgap]

theorem exists_skipGap_prettyFields (level : Nat) (f : String × Json)
    (fields : List (String × Json)) (rest : List Char) : ∃ c, c ≠ '\x7d' ∧ ∃ more,
      skipGap ((prettyFields level (f :: fields)).toList ++ rest) = c :: more := by
  refine ⟨'"', by decide, ?_⟩
  cases fields <;>
    simp [prettyFields, toList_quoted, skipGap_append (isGap_of_mem_margin _), skipGap_cons, isGap]

theorem readsBack_arr {depth : Nat} {items : List Json} (hplain : ∀ j ∈ items, Plain depth j)
    (each : ∀ j ∈ items, ReadsBack depth j) : ReadsBack (depth + 1) (.arr items) := by
  intro level fuel room wanted rest hroom hfuel _ _
  cases items with
  | nil =>
      have htext : (prettyAt level (.arr [])).toList = ['[', ']'] := by simp [prettyAt]
      rw [htext] at hfuel ⊢
      obtain ⟨fuel, rfl⟩ : ∃ n, fuel = n + 1 := ⟨fuel - 1, by simp at hfuel; omega⟩
      have hopen : ¬ room ≤ 1 := by omega
      simp [value?, skipGap_cons, isGap, hopen]
  | cons j items =>
      have htext : (prettyAt level (.arr (j :: items))).toList ++ rest =
          '[' :: ((prettyItems level (j :: items)).toList ++
            ((margin level).toList ++ ']' :: rest)) := by
        simp [prettyAt]
      have hlength := congrArg List.length htext
      simp only [List.length_append, List.length_cons] at hlength
      obtain ⟨fuel, rfl⟩ : ∃ n, fuel = n + 1 := ⟨fuel - 1, by omega⟩
      obtain ⟨c, hc, more, hskip⟩ := exists_skipGap_prettyItems (hplain j List.mem_cons_self) level
        items ((margin level).toList ++ ']' :: rest)
      rw [htext]
      exact value?_items (by omega) hskip hc
        (items?_prettyItems (List.cons_ne_nil j items) each (by omega) (by omega) rest)

theorem readsBack_obj {depth : Nat} {fields : List (String × Json)}
    (each : ∀ f ∈ fields, ReadsBack depth f.2) : ReadsBack (depth + 1) (.obj fields) := by
  intro level fuel room wanted rest hroom hfuel _ hwanted
  cases fields with
  | nil =>
      have htext : (prettyAt level (.obj [])).toList = ['\x7b', '\x7d'] := by simp [prettyAt]
      rw [htext] at hfuel ⊢
      obtain ⟨fuel, rfl⟩ : ∃ n, fuel = n + 1 := ⟨fuel - 1, by simp at hfuel; omega⟩
      have hopen : ¬ room ≤ 1 := by omega
      simp [value?, skipGap_cons, isGap, hopen]
  | cons f fields =>
      have htext : (prettyAt level (.obj (f :: fields))).toList ++ rest =
          '\x7b' :: ((prettyFields level (f :: fields)).toList ++
            ((margin level).toList ++ '\x7d' :: rest)) := by
        simp [prettyAt]
      have hlength := congrArg List.length htext
      simp only [List.length_append, List.length_cons] at hlength
      obtain ⟨fuel, rfl⟩ : ∃ n, fuel = n + 1 := ⟨fuel - 1, by omega⟩
      obtain ⟨c, hc, more, hskip⟩ := exists_skipGap_prettyFields level f fields
        ((margin level).toList ++ '\x7d' :: rest)
      rw [htext]
      exact value?_fields (by omega) hskip hc
        (fields?_prettyFields (List.cons_ne_nil f fields) each (hwanted _ rfl) (by omega) (by omega)
          rest)

/-- **A plain value is read back**, whatever follows it. -/
theorem Plain.readsBack {depth : Nat} {j : Json} (h : Plain depth j) : ReadsBack depth j := by
  induction h with
  | null => exact readsBack_null _
  | bool b => exact readsBack_bool _ b
  | nat fits => exact readsBack_nat fits
  | str s => exact readsBack_str _ s
  | arr each ih => exact readsBack_arr each ih
  | obj _ ih => exact readsBack_obj ih

/-- **The written form of a plain value holds this value and nothing else.** -/
theorem parseWanted?_pretty {depth : Nat} {j : Json} {wanted : String → Bool} (h : Plain depth j)
    (hdepth : depth < nestingLimit)
    (hwanted : ∀ fields, j = .obj fields → ∀ f ∈ fields, wanted f.1 = true) :
    parseWanted? wanted j.pretty = some j := by
  have hvalue := h.readsBack 0 (2 * j.pretty.toList.length + 2) nestingLimit wanted [] hdepth
    (Nat.le_add_right _ _) (by simp [EndsNumber]) hwanted
  rw [List.append_nil] at hvalue
  rw [parseWanted?]
  simp only [pretty] at hvalue ⊢
  rw [hvalue]
  rfl

end LoadBridge.Json
