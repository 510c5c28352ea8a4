import LoadBridge.Symbol.Record

/-!
# Symbols — Arities

A pure virtual function cannot carry default arguments, so a callable whose last `k` arguments have
defaults is offered `k + 1` times: with all its arguments, then with one fewer each time.
-/

namespace LoadBridge

/-- The number of arguments at the end that have defaults. -/
def trailingDefaults (args : List Argument) : Nat :=
  (args.reverse.takeWhile (·.hasDefault)).length

/-- One way to call a callable. -/
structure Arity where
  args : List Argument
  /-- How many defaulted arguments are left out. -/
  removed : Nat
  deriving DecidableEq, Inhabited

/-- Whether an argument is left out. -/
def Arity.isTruncated (a : Arity) : Bool := a.removed > 0

/-- All the ways to call a callable, longest first. -/
def arities (args : List Argument) : List Arity :=
  (List.range (trailingDefaults args + 1)).map fun removed =>
    ⟨args.take (args.length - removed), removed⟩

theorem trailingDefaults_le (args : List Argument) : trailingDefaults args ≤ args.length := by
  have h := (List.takeWhile_sublist (fun a : Argument => a.hasDefault) (l := args.reverse)).length_le
  simpa [trailingDefaults] using h

theorem length_arities (args : List Argument) :
    (arities args).length = trailingDefaults args + 1 := by simp [arities]

end LoadBridge
