/-!
# Text — Brackets

Scopes and argument lists are written flat, so they are taken apart by counting brackets: a
separator counts only where no bracket is open.  A closing bracket with no partner is an ordinary
character (the count stops at zero).
-/

namespace LoadBridge.Text

/-- Which characters open and which close a bracket. -/
structure Brackets where
  opens : Char → Bool
  closes : Char → Bool

namespace Brackets

/-- Template brackets. -/
def angle : Brackets := ⟨(· == '<'), (· == '>')⟩

/-- Template brackets and parentheses. -/
def call : Brackets := ⟨fun c => c == '<' || c == '(', fun c => c == '>' || c == ')'⟩

/-- The number of open brackets after `c`, when there were `depth` before it. -/
def after (b : Brackets) (depth : Nat) (c : Char) : Nat :=
  if b.opens c then depth + 1 else if b.closes c then depth - 1 else depth

end Brackets

/-- The pieces between the commas outside brackets, as they stand.  There is always one. -/
def commaPieces (b : Brackets) : Nat → List Char → List (List Char)
  | _, [] => [[]]
  | depth, c :: rest =>
    if c = ',' ∧ depth = 0 then [] :: commaPieces b 0 rest
    else (commaPieces b (b.after depth c) rest).modifyHead (c :: ·)

/-- The pieces between the `::` outside template brackets, as they stand.  There is always one. -/
def scopePieces : Nat → List Char → List (List Char)
  | _, [] => [[]]
  | 0, ':' :: ':' :: rest => [] :: scopePieces 0 rest
  | depth, c :: rest => (scopePieces (Brackets.angle.after depth c) rest).modifyHead (c :: ·)

/-- The text without the `::` it starts with, however many there are. -/
def dropScopeMarks : List Char → List Char
  | ':' :: ':' :: rest => dropScopeMarks rest
  | cs => cs

theorem commaPieces_ne_nil (b : Brackets) :
    ∀ (depth : Nat) (cs : List Char), commaPieces b depth cs ≠ []
  | _, [] => by simp [commaPieces]
  | depth, c :: rest => by
    have ih := commaPieces_ne_nil b (b.after depth c) rest
    unfold commaPieces
    split
    · simp
    · cases h : commaPieces b (b.after depth c) rest with
      | nil => exact absurd h ih
      | cons => simp

end LoadBridge.Text
