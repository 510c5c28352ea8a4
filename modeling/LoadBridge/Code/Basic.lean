import LoadBridge.Code.Writer

/-!
# Code — Code as a tree

Generated code is built as a tree of lines and blocks and written at the end.  Writing a tree
leaves the writer at the level it had (`level_write`), so blocks cannot be left open.
-/

namespace LoadBridge

/-- A piece of code. -/
inductive Code where
  | empty
  | line (text : String)
  | seq (first second : Code)
  /-- A header, a body in braces one level deeper, and what follows the closing brace. -/
  | block (header : String) (body : Code) (trailer : String)
  /-- A body one level deeper. -/
  | indented (body : Code)
  /-- A body in namespaces, at the same level. -/
  | within (scope : List String) (body : Code)
  deriving DecidableEq, Inhabited

namespace Code

instance : Append Code := ⟨.seq⟩

/-- A line without text. -/
def blank : Code := .line ""

/-- One piece after the other. -/
def concat (pieces : List Code) : Code := pieces.foldr (· ++ ·) .empty

/-- One line after the other. -/
def lines (texts : List String) : Code := concat (texts.map .line)

/-- A block with one line for each statement. -/
def function (header : String) (body : List String) : Code := .block header (lines body) ""

/-- `body` if `c` holds, nothing otherwise. -/
def onlyIf (c : Bool) (body : Code) : Code := if c then body else .empty

/-- Writes a piece of code. -/
def write : Code → CodeWriter → CodeWriter
  | .empty, w => w
  | .line text, w => w.line text
  | .seq a b, w => b.write (a.write w)
  | .block header body trailer, w => (body.write (w.openBlock header)).closeBlock trailer
  | .indented body, w => (body.write w.indent).dedent
  | .within scope body, w => (body.write (w.openNamespaces scope)).closeNamespaces scope

/-- Writing leaves the writer at the level it had. -/
theorem level_write (c : Code) (w : CodeWriter) : (c.write w).level = w.level := by
  induction c generalizing w with
  | empty => rfl
  | line text => simp [write]
  | seq a b iha ihb => simp [write, iha, ihb]
  | block header body trailer ih => simp [write, ih]
  | indented body ih => simp [write, CodeWriter.dedent, ih, CodeWriter.indent]
  | within scope body ih => simp [write, ih]

/-- The text of a piece of code, with `width` spaces for each level. -/
def render (width : Nat) (c : Code) : String := (c.write { width }).text

end Code

end LoadBridge
