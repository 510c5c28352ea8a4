import Mathlib.Data.List.Basic
import LoadBridge.Code.Basic

/-!
# Code — What code consists of

Code is read as the list of its lines and blocks (`Code.items`): indentation, namespaces and blank
lines make no difference, and what stands in a block stays in it.  Where the namespaces matter, code
is read as the list of its parts in namespaces (`Code.parts`).  Each way to build code has one
equation for each reading.
-/

namespace LoadBridge.Code

/-- A line that is not blank, or a block. -/
inductive Item where
  | line (text : String)
  | block (header : String) (body : Code) (trailer : String)

/-- A block with one line for each statement. -/
def Item.function (header : String) (body : List String) : Item := .block header (lines body) ""

/-- The lines and blocks of a piece of code in order, at any level and in any namespace. -/
def items : Code → List Item
  | .empty => []
  | .line text => if text = "" then [] else [.line text]
  | .seq a b => a.items ++ b.items
  | .block header body trailer => [.block header body trailer]
  | .indented body => body.items
  | .within _ body => body.items

/-- The parts of a piece of code that stand in namespaces, each beside its namespaces. -/
def parts : Code → List (List String × Code)
  | .seq a b => a.parts ++ b.parts
  | .within scope body => [(scope, body)]
  | _ => []

variable {α : Type}

/-! ### Lines and blocks -/

@[simp] theorem items_append (a b : Code) : (a ++ b).items = a.items ++ b.items := rfl

@[simp] theorem items_empty : Code.empty.items = [] := rfl

@[simp] theorem items_blank : blank.items = [] := rfl

@[simp] theorem items_line (text : String) :
    (Code.line text).items = if text = "" then [] else [.line text] := rfl

@[simp] theorem items_block (header : String) (body : Code) (trailer : String) :
    (Code.block header body trailer).items = [.block header body trailer] := rfl

@[simp] theorem items_indented (body : Code) : (Code.indented body).items = body.items := rfl

@[simp] theorem items_within (scope : List String) (body : Code) :
    (Code.within scope body).items = body.items := rfl

@[simp] theorem items_function (header : String) (body : List String) :
    (function header body).items = [.function header body] := rfl

@[simp] theorem items_onlyIf (c : Bool) (body : Code) :
    (onlyIf c body).items = if c then body.items else [] := by
  cases c <;> rfl

@[simp] theorem items_concat (pieces : List Code) :
    (concat pieces).items = pieces.flatMap items := by
  induction pieces with
  | nil => rfl
  | cons piece rest ih =>
      rw [List.flatMap_cons, ← ih]
      rfl

/-- Pieces that are one item each are read one by one. -/
theorem items_concat_map {piece : α → Code} {item : α → Item}
    (h : ∀ a, (piece a).items = [item a]) (as : List α) :
    (concat (as.map piece)).items = as.map item := by
  rw [items_concat, List.flatMap_map, List.map_eq_flatMap]
  simp only [h]

theorem append_ne_empty (a : String) {b : String} (h : b ≠ "") : a ++ b ≠ "" :=
  fun hab => h (String.append_eq_empty_iff.1 hab).2

/-- Lines that are not blank are read one by one. -/
theorem items_lines {texts : List String} (h : ∀ text ∈ texts, text ≠ "") :
    (lines texts).items = texts.map .line := by
  rw [lines, items_concat, List.flatMap_map, List.map_eq_flatMap]
  exact List.flatMap_congr fun text htext => if_neg (h text htext)

/-! ### Parts in namespaces -/

end LoadBridge.Code
