import LoadBridge.Text.Blank

/-!
# Code — The writer

Collects lines of C++ at a level of indentation.  Braces stand on lines of their own.  A line
without text is a bare line break at every level.
-/

namespace LoadBridge

/-- The text so far and the level that lines are written at. -/
structure CodeWriter where
  /-- Spaces for each level. -/
  width : Nat
  level : Nat := 0
  text : String := ""
  deriving DecidableEq, Inhabited

namespace CodeWriter

/-- Writes one line. -/
def line (w : CodeWriter) (s : String) : CodeWriter :=
  if s.isEmpty then { w with text := w.text ++ "\n" }
  else { w with text := w.text ++ Text.spaces (w.width * w.level) ++ s ++ "\n" }

/-- Writes a bare line break. -/
def blank (w : CodeWriter) : CodeWriter := { w with text := w.text ++ "\n" }

def indent (w : CodeWriter) : CodeWriter := { w with level := w.level + 1 }

/-- Goes back one level, from level zero to level zero. -/
def dedent (w : CodeWriter) : CodeWriter := { w with level := w.level - 1 }

/-- Writes `header` and an opening brace, and goes one level deeper. -/
def openBlock (w : CodeWriter) (header : String) : CodeWriter := ((w.line header).line "\x7b").indent

/-- Goes back one level and writes a closing brace with what follows it. -/
def closeBlock (w : CodeWriter) (trailer : String) : CodeWriter := w.dedent.line ("\x7d" ++ trailer)

/-- Writes a block with one line for each statement. -/
def function (w : CodeWriter) (header : String) (body : List String) : CodeWriter :=
  (body.foldl line (w.openBlock header)).closeBlock ""

/-- Opens a namespace for each name, at the level of the writer. -/
def openNamespaces (w : CodeWriter) (scope : List String) : CodeWriter :=
  scope.foldl (fun w name => (w.line ("namespace " ++ name)).line "\x7b") w

/-- Closes a namespace for each name. -/
def closeNamespaces (w : CodeWriter) (scope : List String) : CodeWriter :=
  scope.foldl (fun w _ => w.line "\x7d") w

/-- Appends text as it is. -/
def raw (w : CodeWriter) (s : String) : CodeWriter := { w with text := w.text ++ s }

def isEmpty (w : CodeWriter) : Bool := w.text.isEmpty

/-! ### Levels -/

@[simp] theorem level_line (w : CodeWriter) (s : String) : (w.line s).level = w.level := by
  unfold line
  split <;> rfl

@[simp] theorem level_openBlock (w : CodeWriter) (header : String) :
    (w.openBlock header).level = w.level + 1 := by simp [openBlock, indent]

@[simp] theorem level_closeBlock (w : CodeWriter) (trailer : String) :
    (w.closeBlock trailer).level = w.level - 1 := by simp [closeBlock, dedent]

@[simp] theorem level_openNamespaces (w : CodeWriter) (scope : List String) :
    (w.openNamespaces scope).level = w.level := by
  induction scope generalizing w with
  | nil => rfl
  | cons name rest ih =>
    rw [show w.openNamespaces (name :: rest) =
      ((w.line ("namespace " ++ name)).line "\x7b").openNamespaces rest from rfl, ih]
    simp

@[simp] theorem level_closeNamespaces (w : CodeWriter) (scope : List String) :
    (w.closeNamespaces scope).level = w.level := by
  induction scope generalizing w with
  | nil => rfl
  | cons name rest ih =>
    rw [show w.closeNamespaces (name :: rest) = (w.line "\x7d").closeNamespaces rest from rfl, ih]
    simp

end CodeWriter

end LoadBridge
