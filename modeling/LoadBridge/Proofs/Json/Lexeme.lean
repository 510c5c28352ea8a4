import Mathlib.Data.List.Basic
import LoadBridge.Json.Lexeme
import LoadBridge.Json.Printer

/-!
# JSON — Lexemes are read back

A string is read back from its written form whatever characters it has (`string?_quoted`), and a
natural number that fits sixty-four bits from its decimal digits (`number?_repr`), where the text
after it cannot be taken for more of the number.
-/

namespace LoadBridge.Json

variable {c : Char} {done rest : List Char}

/-! ### Strings -/

theorem hexValue?_hexDigit : ∀ n < 16, hexValue? (hexDigit n) = some n := by decide

theorem hexDigit_ne : ∀ n < 16, hexDigit n ≠ '"' ∧ hexDigit n ≠ '\\' := by decide

/-- **The three ways to write a character**: as it is, by an escape of two characters, or by its
number. -/
theorem escapeChar_cases (c : Char) :
    (escapeChar c = [c] ∧ c ≠ '"' ∧ c ≠ '\\' ∧ 32 ≤ c.toNat) ∨
    (∃ e, escapeChar c = ['\\', e] ∧ escaped? e = some c ∧ e ≠ 'u') ∨
    (escapeChar c = ['\\', 'u', '0', '0', hexDigit (c.toNat / 16), hexDigit (c.toNat % 16)] ∧
      c.toNat < 32) := by
  have htoNat : ∀ {d : Char}, c.toNat = d.toNat → d = c := fun h => (Char.toNat_inj.1 h).symm
  unfold escapeChar
  split
  · next h => exact .inr (.inl ⟨'"', rfl, congrArg some h.symm, by decide⟩)
  split
  · next h => exact .inr (.inl ⟨'\\', rfl, congrArg some h.symm, by decide⟩)
  split
  · next h => exact .inr (.inl ⟨'n', rfl, congrArg some h.symm, by decide⟩)
  split
  · next h => exact .inr (.inl ⟨'t', rfl, congrArg some h.symm, by decide⟩)
  split
  · next h => exact .inr (.inl ⟨'r', rfl, congrArg some h.symm, by decide⟩)
  split
  · next h => exact .inr (.inl ⟨'b', rfl, congrArg some (htoNat h), by decide⟩)
  split
  · next h => exact .inr (.inl ⟨'f', rfl, congrArg some (htoNat h), by decide⟩)
  split
  · next h => exact .inr (.inr ⟨rfl, h⟩)
  · next hquote hslash _ _ _ _ _ hcontrol => exact .inl ⟨rfl, hquote, hslash, by omega⟩

theorem inside_cons (hquote : c ≠ '"') (hslash : c ≠ '\\') :
    inside done (c :: rest) = inside (c :: done) rest :=
  inside.eq_4 done c rest hquote fun _ _ h _ => hslash h

/-- The inside of a string ends at the quote after it. -/
theorem inside_flatMap_escapeChar (s done rest : List Char) :
    inside done (s.flatMap escapeChar ++ '"' :: rest) =
      some (done.reverse ++ s.flatMap escapeChar, rest) := by
  induction s generalizing done with
  | nil => simp [inside]
  | cons c s ih =>
      rw [List.flatMap_cons, List.append_assoc]
      rcases escapeChar_cases c with ⟨h, hquote, hslash, -⟩ | ⟨e, h, -, -⟩ | ⟨h, hcontrol⟩
      · rw [h, List.singleton_append, inside_cons hquote hslash, ih]
        simp
      · simp [h, inside, ih]
      · obtain ⟨hquote, hslash⟩ := hexDigit_ne (c.toNat / 16) (by omega)
        obtain ⟨hquote', hslash'⟩ := hexDigit_ne (c.toNat % 16) (by omega)
        simp only [h, List.cons_append, List.nil_append, inside]
        rw [inside_cons (by decide) (by decide), inside_cons (by decide) (by decide),
          inside_cons hquote hslash, inside_cons hquote' hslash', ih]
        simp

theorem unescape_cons (hslash : c ≠ '\\') (hcontrol : 32 ≤ c.toNat) :
    unescape done (c :: rest) = unescape (c :: done) rest := by
  rw [unescape.eq_4 done c rest (fun _ _ _ _ _ h _ => hslash h) fun _ _ h _ => hslash h,
    if_neg (by simp [hslash, hcontrol])]

theorem unescape_escape {e : Char} (he : e ≠ 'u') (hescaped : escaped? e = some c) :
    unescape done ('\\' :: e :: rest) = unescape (c :: done) rest := by
  rw [unescape.eq_3 done e rest fun _ _ _ _ _ h _ => he h, hescaped]

theorem unescape_number (hcontrol : c.toNat < 32) :
    unescape done ('\\' :: 'u' :: '0' :: '0' :: hexDigit (c.toNat / 16) ::
      hexDigit (c.toNat % 16) :: rest) = unescape (c :: done) rest := by
  have hvalue : hex4? '0' '0' (hexDigit (c.toNat / 16)) (hexDigit (c.toNat % 16)) =
      some c.toNat := by
    have hzero : hexValue? '0' = some 0 := rfl
    rw [hex4?, hzero, hexValue?_hexDigit (c.toNat / 16) (by omega),
      hexValue?_hexDigit (c.toNat % 16) (by omega)]
    exact congrArg some (by omega)
  have hhigh : isHighSurrogate c.toNat = false := by simp [isHighSurrogate]; omega
  have hlow : isLowSurrogate c.toNat = false := by simp [isLowSurrogate]; omega
  rw [unescape.eq_2, hvalue]
  simp [hhigh, hlow]

/-- **The escapes of a string are resolved.** -/
theorem unescape_flatMap_escapeChar (s done : List Char) :
    unescape done (s.flatMap escapeChar) = some (done.reverse ++ s) := by
  induction s generalizing done with
  | nil => simp [unescape]
  | cons c s ih =>
      rw [List.flatMap_cons]
      rcases escapeChar_cases c with ⟨h, -, hslash, hcontrol⟩ | ⟨e, h, hescaped, he⟩ | ⟨h, hcontrol⟩
      · rw [h, List.singleton_append, unescape_cons hslash hcontrol, ih]
        simp
      · rw [h, List.cons_append, List.singleton_append, unescape_escape he hescaped, ih]
        simp
      · simp only [h, List.cons_append, List.nil_append]
        rw [unescape_number hcontrol, ih]
        simp

/-- **A string is read back**, up to its closing quote. -/
theorem string?_quoted (s : String) (rest : List Char) :
    string? (s.toList.flatMap escapeChar ++ '"' :: rest) = some (s, rest) := by
  rw [string?, inside_flatMap_escapeChar, List.reverse_nil, List.nil_append]
  simp [unescape_flatMap_escapeChar]

/-! ### Numbers -/

/-- The text goes on with nothing that belongs to a number. -/
def EndsNumber (rest : List Char) : Prop :=
  ∀ c ∈ rest.head?, c.isDigit = false ∧ c ≠ '.' ∧ c ≠ 'e' ∧ c ≠ 'E'

theorem ofDigits_toDigits (n : Nat) : Decimal.ofDigits (Nat.toDigits 10 n) = n := by
  have h := Nat.ofDigitChars_ten_toDigits (n := n)
  simpa [Nat.ofDigitChars, Decimal.ofDigits, Nat.mul_comm] using h

/-- Only zero is written with a zero in front. -/
theorem head?_toDigits {n : Nat} (h : 0 < n) : (Nat.toDigits 10 n).head? ≠ some '0' := by
  induction n using Nat.strongRecOn with
  | ind n ih =>
      by_cases hn : n < 10
      · have hdigit : ∀ d < 10, 0 < d → d.digitChar ≠ '0' := by decide
        rw [Nat.toDigits_of_lt_base hn, List.head?_cons]
        exact fun heq => hdigit n hn h (Option.some.inj heq)
      · have hrest := ih (n / 10) (by omega) (by omega)
        rw [Nat.toDigits_of_base_le (by omega) (by omega),
          List.head?_append_of_ne_nil _ Nat.toDigits_ne_nil]
        exact hrest

/-- The digits of a number that fits sixty-four bits are all read. -/
theorem extend_of_lt {n : Nat} {ds : List Char}
    (h : ds.foldl (fun n d => n * 10 + (d.toNat - 48)) n < UInt64.size) :
    Decimal.extend n ds = (ds.foldl (fun n d => n * 10 + (d.toNat - 48)) n, 0) := by
  have hle : ∀ (ds : List Char) (n : Nat), n ≤ ds.foldl (fun n d => n * 10 + (d.toNat - 48)) n := by
    intro ds
    induction ds with
    | nil => exact fun n => Nat.le_refl n
    | cons d ds ih => exact fun n => Nat.le_trans (by omega) (ih (n * 10 + (d.toNat - 48)))
  induction ds generalizing n with
  | nil => rfl
  | cons d ds ih =>
      have hnext := hle ds (n * 10 + (d.toNat - 48))
      rw [Decimal.extend, if_pos (Nat.lt_of_le_of_lt hnext h), ih h]
      rfl

/-- Rounding at most doubles a number. -/
theorem nearest_le (n : Nat) : Decimal.nearest n ≤ 2 * n := by
  rcases Nat.eq_zero_or_pos n with rfl | hn
  · decide
  · have hunit : Nat.pow 2 (n.log2 - 52) ≤ n :=
      Nat.le_trans (Nat.pow_le_pow_right (by omega) (Nat.sub_le _ _)) (Nat.log2_self_le (by omega))
    have hkept := Nat.div_mul_le_self n (Nat.pow 2 (n.log2 - 52))
    rw [Decimal.nearest]
    split
    · rw [Nat.add_mul]
      omega
    · omega

/-- A number that fits sixty-four bits is in range. -/
theorem isFiniteProduct_zero {n : Nat} (h : n < UInt64.size) :
    Decimal.isFiniteProduct n 0 = true := by
  have hone : Decimal.nearest (Nat.pow 10 (0 : Int).toNat) = 1 := by decide
  have hsize : 2 * UInt64.size ≤ Decimal.leastInfinite := by decide +kernel
  have hnearest := nearest_le n
  rw [Decimal.isFiniteProduct, hone]
  simp [Decimal.largestPower]
  omega

theorem takeWhile_of_endsNumber (h : EndsNumber rest) : rest.takeWhile Char.isDigit = [] := by
  cases rest with
  | nil => rfl
  | cons c rest => simp [(h c rfl).1]

theorem dropWhile_of_endsNumber (h : EndsNumber rest) : rest.dropWhile Char.isDigit = rest := by
  cases rest with
  | nil => rfl
  | cons c rest => simp [(h c rfl).1]

theorem fraction?_of_endsNumber (h : EndsNumber rest) : fraction? rest = some ([], rest) := by
  unfold fraction?
  split
  · next rest => exact absurd rfl (h '.' rfl).2.1
  · rfl

theorem exponent?_of_endsNumber (h : EndsNumber rest) : exponent? rest = some ([], rest) := by
  cases rest with
  | nil => rfl
  | cons c rest => simp [exponent?, (h c rfl).2.2]

/-- The digits of a number are read, and nothing else. -/
theorem numeral?_toDigits (n : Nat) (h : EndsNumber rest) :
    numeral? (Nat.toDigits 10 n ++ rest) = some (⟨false, Nat.toDigits 10 n, [], []⟩, rest) := by
  have hdigits : ∀ c ∈ Nat.toDigits 10 n, c.isDigit = true :=
    fun _ => Nat.isDigit_of_mem_toDigits (by omega) (by omega)
  have htake : (Nat.toDigits 10 n ++ rest).takeWhile Char.isDigit = Nat.toDigits 10 n := by
    rw [List.takeWhile_append_of_pos hdigits, takeWhile_of_endsNumber h, List.append_nil]
  have hdrop : (Nat.toDigits 10 n ++ rest).dropWhile Char.isDigit = rest := by
    rw [List.dropWhile_append_of_pos hdigits, dropWhile_of_endsNumber h]
  rcases Nat.eq_zero_or_pos n with rfl | hn
  · simp [numeral?, fraction?_of_endsNumber h, exponent?_of_endsNumber h]
  · obtain ⟨c, ds, hcons⟩ := List.exists_cons_of_ne_nil (Nat.toDigits_ne_nil (b := 10) (n := n))
    have hzero : c ≠ '0' := fun h => head?_toDigits hn (by rw [hcons, h]; rfl)
    have hminus : c ≠ '-' := by
      rintro rfl
      exact absurd (hdigits '-' (hcons ▸ List.mem_cons_self)) (by decide)
    rw [hcons, List.cons_append] at htake hdrop
    rw [hcons, List.cons_append]
    simp [numeral?, hminus, hzero, htake, hdrop, fraction?_of_endsNumber h, exponent?_of_endsNumber h]

/-- A natural number that fits sixty-four bits is in range, however it is written. -/
theorem isInRange_toDigits {n : Nat} (h : n < UInt64.size) :
    Numeral.isInRange ⟨false, Nat.toDigits 10 n, [], []⟩ = true := by
  have hdigits := ofDigits_toDigits n
  rw [Decimal.ofDigits] at hdigits
  have hextend : Decimal.extend 0 (Nat.toDigits 10 n) = _ := extend_of_lt (by rwa [hdigits])
  rw [hdigits] at hextend
  have hscaled : Numeral.scaled ⟨false, Nat.toDigits 10 n, [], []⟩ = (n, 0) := by
    simp [Numeral.scaled, hextend, Decimal.extend, Numeral.writtenExponent, Decimal.ofDigits]
  rw [Numeral.isInRange, hscaled]
  exact isFiniteProduct_zero h

/-- **A natural number that fits sixty-four bits is read back.** -/
theorem number?_repr {n : Nat} (hsize : n < UInt64.size) (h : EndsNumber rest) :
    number? (n.repr.toList ++ rest) = some (.nat n, rest) := by
  rw [Nat.toList_repr, number?, numeral?_toDigits n h]
  simp [Numeral.value?, isInRange_toDigits hsize, Numeral.isWhole, ofDigits_toDigits, nat]

end LoadBridge.Json
