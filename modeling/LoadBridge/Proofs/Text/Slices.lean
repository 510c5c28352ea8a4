import Mathlib.Data.Nat.PSub
import Mathlib.Data.String.Basic

/-!
# Text — Slices at byte offsets

A text is stored as bytes, so where a part of it is cut out its ends are offsets of bytes.  A cut is
not possible everywhere: at an offset inside a character, behind the end, or with an end before its
start it fails (`slice?`).  It succeeds exactly where the offsets are the sizes of what stands in
front of the part, and in front of what follows it (`slice?_eq_some_iff`), as is the offset of a
character that was looked for (`find?_cases`).
-/

namespace LoadBridge.Text

open String (utf8Len)

/-- The text before and behind an offset, if a character starts there or the text ends there. -/
def splitAt? : List Char → Nat → Option (List Char × List Char)
  | cs, 0 => some ([], cs)
  | [], _ + 1 => none
  | c :: rest, offset + 1 => do
    let remaining ← (offset + 1).psub c.utf8Size
    let (before, after) ← splitAt? rest remaining
    some (c :: before, after)

/-- The text from one offset to another, if both are offsets where it can be cut, in this order. -/
def slice? (cs : List Char) (first last : Nat) : Option (List Char) :=
  if first ≤ last then do
    let ended ← splitAt? cs last
    let started ← splitAt? ended.1 first
    some started.2
  else none

/-- The offset of the first `x`. -/
def find? (x : Char) : List Char → Option Nat
  | [] => none
  | c :: rest => if c = x then some 0 else (find? x rest).map (c.utf8Size + ·)

variable {cs before inside after : List Char} {x : Char}

/-- A text can be cut behind every character. -/
theorem splitAt?_append (before after : List Char) :
    splitAt? (before ++ after) (utf8Len before) = some (before, after) := by
  induction before with
  | nil => cases after <;> rfl
  | cons c before ih =>
    have hpos := c.utf8Size_pos
    obtain ⟨offset, hoffset⟩ := Nat.exists_eq_succ_of_ne_zero
      (show utf8Len (c :: before) ≠ 0 by rw [String.utf8Len_cons]; omega)
    have hremaining : (offset + 1).psub c.utf8Size = some (utf8Len before) := by
      rw [← Nat.succ_eq_add_one, ← hoffset, String.utf8Len_cons,
        Nat.psub_eq_sub (Nat.le_add_left _ _), Nat.add_sub_cancel]
    rw [hoffset, List.cons_append, splitAt?, hremaining]
    simp [ih]

/-- **A text is cut into two parts** at the size of the first. -/
theorem splitAt?_eq_some_iff {offset : Nat} :
    splitAt? cs offset = some (before, after) ↔ cs = before ++ after ∧ offset = utf8Len before := by
  constructor
  · intro h
    induction cs generalizing offset before with
    | nil =>
      cases offset with
      | zero => cases h; exact ⟨rfl, rfl⟩
      | succ offset => cases h
    | cons c rest ih =>
      cases offset with
      | zero => cases h; exact ⟨rfl, rfl⟩
      | succ offset =>
        obtain ⟨remaining, hremaining, h⟩ := Option.bind_eq_some_iff.1 h
        obtain ⟨⟨first, last⟩, hrest, h⟩ := Option.bind_eq_some_iff.1 h
        cases h
        obtain ⟨rfl, rfl⟩ := ih hrest
        exact ⟨rfl, (Nat.psub_eq_some.1 hremaining).symm⟩
  · rintro ⟨rfl, rfl⟩
    exact splitAt?_append before after

/-- **A part is cut out between the sizes of what stands before its ends**, and nowhere else. -/
theorem slice?_eq_some_iff {first last : Nat} : slice? cs first last = some inside ↔
    ∃ before after, cs = before ++ inside ++ after ∧ first = utf8Len before ∧
      last = utf8Len (before ++ inside) := by
  rw [slice?]
  constructor
  · intro h
    split at h
    · obtain ⟨⟨ended, after⟩, hlast, h⟩ := Option.bind_eq_some_iff.1 h
      obtain ⟨⟨before, inside⟩, hfirst, h⟩ := Option.bind_eq_some_iff.1 h
      cases h
      obtain ⟨rfl, rfl⟩ := splitAt?_eq_some_iff.1 hlast
      obtain ⟨rfl, rfl⟩ := splitAt?_eq_some_iff.1 hfirst
      exact ⟨before, after, rfl, rfl, rfl⟩
    · cases h
  · rintro ⟨before, after, rfl, rfl, rfl⟩
    have hle : utf8Len before ≤ utf8Len (before ++ inside) := by
      rw [String.utf8Len_append]
      exact Nat.le_add_right _ _
    rw [if_pos hle, splitAt?_append, Option.bind_eq_bind, Option.bind_some, splitAt?_append]
    rfl

theorem slice?_append (before inside after : List Char) :
    slice? (before ++ inside ++ after) (utf8Len before) (utf8Len (before ++ inside)) =
      some inside := slice?_eq_some_iff.2 ⟨before, after, rfl, rfl, rfl⟩

/-- There is no cut inside a character. -/
example : slice? ['é', '<'] 0 1 = none := by decide

/-- The first part of a text. -/
theorem slice?_start (h : cs = before ++ after) : slice? cs 0 (utf8Len before) = some before :=
  h ▸ slice?_append [] before after

/-- The last part of a text. -/
theorem slice?_end (h : cs = before ++ after) :
    slice? cs (utf8Len before) (utf8Len cs) = some after := by
  have hlast := slice?_append before after []
  rwa [List.append_nil, ← h] at hlast

/-- The text behind a character of one byte starts one byte behind it. -/
theorem utf8Len_concat (hx : x.utf8Size = 1) (before : List Char) :
    utf8Len (before ++ [x]) = utf8Len before + 1 := by
  rw [String.utf8Len_append, String.utf8Len_cons, String.utf8Len_nil, hx]

/-- **A character is found at the end of what stands before it**, if it is in the text. -/
theorem find?_cases (x : Char) (cs : List Char) :
    (cs.dropWhile (· != x) = [] ∧ find? x cs = none) ∨
      ∃ after, cs.dropWhile (· != x) = x :: after ∧ cs = cs.takeWhile (· != x) ++ x :: after ∧
        find? x cs = some (utf8Len (cs.takeWhile (· != x))) := by
  induction cs with
  | nil => exact .inl ⟨rfl, rfl⟩
  | cons c rest ih =>
    by_cases hc : c = x
    · subst hc
      exact .inr ⟨rest, by simp, by simp, by simp [find?]⟩
    have hdropped : (c :: rest).dropWhile (· != x) = rest.dropWhile (· != x) :=
      List.dropWhile_cons_of_pos (by simpa using hc)
    have htaken : (c :: rest).takeWhile (· != x) = c :: rest.takeWhile (· != x) :=
      List.takeWhile_cons_of_pos (by simpa using hc)
    rw [hdropped, htaken, find?, if_neg hc]
    rcases ih with ⟨hdrop, hfind⟩ | ⟨after, hdrop, hrest, hfind⟩
    · exact .inl ⟨hdrop, by rw [hfind, Option.map_none]⟩
    · refine .inr ⟨after, hdrop, congrArg (c :: ·) hrest, ?_⟩
      rw [hfind, Option.map_some, String.utf8Len_cons, Nat.add_comm]

end LoadBridge.Text
