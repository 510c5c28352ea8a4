import LoadBridge.Code.Basic
import LoadBridge.Proofs.Text.Braces

/-!
# Code — Well nested code

Code is well nested when its lines are, and no head of a block or a namespace has a brace in it
(`Code.Nested`).  Each way to build code has one equation for this.  What well nested code writes
is well nested (`Code.Nested.writes`), since a block closes the brace that it opens, and namespaces
close as many as they open.
-/

namespace LoadBridge

open Text

namespace CodeWriter

variable {w v u : CodeWriter} {s trailer : String} {scope : List String}

/-! ### What writers write -/

/-- `v` has more text than `w`, and what it has more is well nested. -/
def Writes (w v : CodeWriter) : Prop := ∃ written, v.text = w.text ++ written ∧ Text.Nested written

theorem Writes.refl (w : CodeWriter) : w.Writes w := ⟨"", by simp, by decide⟩

theorem Writes.trans (h : w.Writes v) (h' : v.Writes u) : w.Writes u := by
  obtain ⟨written, htext, hnested⟩ := h
  obtain ⟨written', htext', hnested'⟩ := h'
  exact ⟨written ++ written', by rw [htext', htext, String.append_assoc], hnested.append hnested'⟩

theorem nested_spaces (n : Nat) : Text.Nested (spaces n) :=
  (braceless_replicate (by decide) (by decide) n).nested

theorem text_line_of_ne (hs : s ≠ "") :
    (w.line s).text = w.text ++ (spaces (w.width * w.level) ++ s ++ "\n") := by
  rw [line, if_neg (by simpa using hs)]
  simp only [String.append_assoc]

theorem writes_line (h : Text.Nested s) : w.Writes (w.line s) := by
  by_cases hs : s = ""
  · subst hs
    exact ⟨"\n", rfl, by decide⟩
  · exact ⟨_, text_line_of_ne hs, ((nested_spaces _).append h).append (by decide)⟩

/-- **What stands between a line with an opening brace and one with a closing brace** is well nested
together with them. -/
theorem Writes.enclosed (h : (w.line "\x7b").Writes v) (htrailer : Text.Nested trailer) :
    w.Writes (v.line ("\x7d" ++ trailer)) := by
  obtain ⟨body, htext, hbody⟩ := h
  have hopen := text_line_of_ne (w := w) (show "\x7b" ≠ "" by decide)
  have hclose := text_line_of_ne (w := v) (s := "\x7d" ++ trailer) (by simp)
  have hinner := (Nested.append (by decide : Text.Nested "\n") hbody).append
    (nested_spaces (v.width * v.level))
  have hwrapped := ((nested_spaces (w.width * w.level)).append hinner.wrap).append
    (htrailer.append (by decide : Text.Nested "\n"))
  refine ⟨_, ?_, hwrapped⟩
  rw [hclose, htext, hopen]
  simp only [String.append_assoc]

theorem line_closeNamespaces (w : CodeWriter) (scope : List String) :
    (w.line "\x7d").closeNamespaces scope = (w.closeNamespaces scope).line "\x7d" := by
  induction scope generalizing w with
  | nil => rfl
  | cons name rest ih => exact ih (w.line "\x7d")

theorem Writes.inNamespaces (hscope : ∀ name ∈ scope, Braceless name)
    (h : (w.openNamespaces scope).Writes v) : w.Writes (v.closeNamespaces scope) := by
  induction scope generalizing w with
  | nil => exact h
  | cons name rest ih =>
    -- The outermost namespace is opened first; its brace is the last that is closed.
    have hname : Braceless ("namespace " ++ name) :=
      braceless_append.2 ⟨by decide, hscope name List.mem_cons_self⟩
    have hinner := (ih (fun n hn => hscope n (List.mem_cons_of_mem _ hn)) h).enclosed
      (by decide : Text.Nested "")
    have hclosed : v.closeNamespaces (name :: rest) = (v.closeNamespaces rest).line "\x7d" :=
      line_closeNamespaces v rest
    rw [hclosed]
    exact (writes_line hname.nested).trans hinner

end CodeWriter

namespace Code

variable {a b body : Code} {text header trailer : String} {texts scope : List String}
  {pieces : List Code} {c : Bool}

/-! ### Well nested code -/

/-- Lines are well nested, and heads of blocks and namespaces have no brace in them. -/
def Nested : Code → Prop
  | .empty => True
  | .line text => Text.Nested text
  | .seq a b => a.Nested ∧ b.Nested
  | .block header body trailer => Braceless header ∧ body.Nested ∧ Braceless trailer
  | .indented body => body.Nested
  | .within scope body => (∀ name ∈ scope, Braceless name) ∧ body.Nested

@[simp] theorem nested_empty : Code.empty.Nested := trivial

@[simp] theorem nested_line : (Code.line text).Nested ↔ Text.Nested text := Iff.rfl

@[simp] theorem nested_blank : blank.Nested := by
  rw [blank, nested_line]
  decide

@[simp] theorem nested_append : (a ++ b).Nested ↔ a.Nested ∧ b.Nested := Iff.rfl

@[simp] theorem nested_block : (Code.block header body trailer).Nested ↔
    Braceless header ∧ body.Nested ∧ Braceless trailer := Iff.rfl

@[simp] theorem nested_indented : (Code.indented body).Nested ↔ body.Nested := Iff.rfl

@[simp] theorem nested_onlyIf : (onlyIf c body).Nested ↔ (c = true → body.Nested) := by
  cases c <;> simp [onlyIf]

@[simp] theorem nested_concat : (concat pieces).Nested ↔ ∀ piece ∈ pieces, piece.Nested := by
  induction pieces with
  | nil => simp [concat]
  | cons piece rest ih =>
    rw [List.forall_mem_cons, ← ih]
    exact Iff.rfl

@[simp] theorem nested_lines : (lines texts).Nested ↔ ∀ text ∈ texts, Text.Nested text := by
  simp [lines]

@[simp] theorem nested_function :
    (function header texts).Nested ↔ Braceless header ∧ ∀ text ∈ texts, Text.Nested text := by
  rw [function, nested_block, nested_lines]
  exact and_congr_right fun _ => and_iff_left (by decide)

/-- **Well nested code writes text that is well nested.** -/
theorem Nested.writes {code : Code} (h : code.Nested) (w : CodeWriter) :
    w.Writes (code.write w) := by
  induction code generalizing w with
  | empty => exact .refl w
  | line text => exact CodeWriter.writes_line h
  | seq a b iha ihb => exact (iha h.1 w).trans (ihb h.2 _)
  | block header body trailer ih =>
    have hbody := ih h.2.1 (w.openBlock header)
    exact (CodeWriter.writes_line h.1.nested).trans (CodeWriter.Writes.enclosed hbody h.2.2.nested)
  | indented body ih => exact ih h w.indent
  | within scope body ih => exact .inNamespaces h.1 (ih h.2 _)

/-- The text of well nested code. -/
theorem Nested.render {code : Code} (h : code.Nested) (width : Nat) :
    Text.Nested (code.render width) := by
  obtain ⟨written, htext, hnested⟩ := h.writes { width }
  rw [Code.render, htext]
  simpa using hnested

end Code

end LoadBridge
