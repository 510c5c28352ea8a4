import LoadBridge.Proofs.Ownership.Questions
import LoadBridge.Proofs.Ownership.Rules

/-!
# Ownership — A boundary is an implementation of the roster

`Boundary.Refines b r` says that the boundary `b` does everything as the roster `r` does: its
operations and its questions have the same outcomes, it refuses what the rules refuse and is then
unchanged, and its destructions free what the rules say and touch nothing else.  Every run reaches a
boundary that refines the roster that the same run reaches (`Boundary.refines_run`).
-/

namespace LoadBridge

open Roster

namespace Boundary

/-- The boundary `b` does as the roster `r` does. -/
structure Refines (b : Boundary) (r : Roster) : Prop where
  /-- The same error; or the same reply, and a boundary whose roster is the one that is left. -/
  perform : ∀ op, (b.perform op).map (Prod.map id roster) = r.perform op
  refused : ∀ op e, b.perform op = .error e ↔ r.Refuses op e
  unchanged : ∀ op e, b.perform op = .error e → b.step op = b
  destroyed : ∀ x gone b', b.destroy x = .ok (gone, b') → r.Destroys x gone b'.roster
  companion_refused : ∀ i e, b.companion i = .error e ↔ r.Denies (.interface i) e
  interfaceOf_refused : ∀ d e, b.interfaceOf d = .error e ↔
    r.Denies (.delegate d) e ∨ .delegate d ∈ r.live ∧ r.link d = none ∧ e = .notLinked d
  companion : ∀ i, b.companion i = r.companion i
  interfaceOf : ∀ d, b.interfaceOf d = r.interfaceOf d
  pairOf : ∀ d, b.pairOf d = r.pairOf d
  liveInterfaces : b.liveInterfaces = r.liveInterfaces
  liveDelegates : b.liveDelegates = r.liveDelegates
  linkedPairs : b.linkedPairs = r.linkedPairs
  freed : b.freed = r.freed

theorem step_of_error {b : Boundary} {op : Operation} {e : ProtocolError}
    (h : b.perform op = .error e) : b.step op = b := by
  rw [step, h]

end Boundary

namespace Roster.Represents

variable {b : Boundary} {r : Roster}

theorem map_perform (h : Represents b r) (hr : r.WellFormed) (op : Operation) :
    (b.perform op).map (Prod.map id Boundary.roster) = r.perform op := by
  have hsim := h.perform hr op
  have hkeep : ∀ reply r', r.perform op = .ok (reply, r') → r'.WellFormed := fun _ _ => hr.perform
  generalize b.perform op = x, r.perform op = y at hsim hkeep
  cases hsim with
  | error e => rfl
  | ok reply h' =>
      have heq := h'.roster_eq (hkeep reply _ rfl)
      exact congrArg (fun r' => Except.ok (reply, r')) heq

theorem refused (h : Represents b r) (hr : r.WellFormed) {op : Operation} {e : ProtocolError} :
    b.perform op = .error e ↔ r.Refuses op e := by
  rw [← perform_eq_error_iff hr, ← h.map_perform hr op, map_eq_error]

theorem destroyed (h : Represents b r) (hr : r.WellFormed) {x : Freed} {gone : List Freed}
    {b' : Boundary} (hd : b.destroy x = .ok (gone, b')) : r.Destroys x gone b'.roster := by
  have hsim := h.destroy hr x
  rw [hd] at hsim
  generalize hr' : r.destroy x = out at hsim
  cases hsim with
  | ok gone h' =>
      rw [h'.roster_eq (hr.destroy hr')]
      exact hr.destroys hr'

theorem refines (h : Represents b r) (hr : r.WellFormed) : b.Refines r where
  perform := h.map_perform hr
  refused _ _ := h.refused hr
  unchanged _ _ := Boundary.step_of_error
  destroyed _ _ _ := h.destroyed hr
  companion_refused i e := by rw [h.companion hr, companion_eq_error_iff]
  interfaceOf_refused d e := by rw [h.interfaceOf hr, interfaceOf_eq_error_iff hr]
  companion := h.companion hr
  interfaceOf := h.interfaceOf hr
  pairOf := h.pairOf hr
  liveInterfaces := h.liveInterfaces hr
  liveDelegates := h.liveDelegates hr
  linkedPairs := h.linkedPairs
  freed := h.freed

end Roster.Represents

/-- **Refinement.**  The roster of a boundary that a run reaches is the roster that the run reaches,
it is well-formed, and the boundary does everything as it does. -/
theorem Boundary.refines_run (ops : List Operation) :
    (run ops).roster = Roster.run ops ∧ (Roster.run ops).WellFormed ∧
      (run ops).Refines (Roster.run ops) :=
  have h := Represents.run ops
  have hr := WellFormed.run ops
  ⟨h.roster_eq hr, hr, h.refines hr⟩

end LoadBridge
