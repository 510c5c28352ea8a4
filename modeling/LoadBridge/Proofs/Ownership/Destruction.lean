import LoadBridge.Proofs.Ownership.Questions
import LoadBridge.Proofs.Ownership.Rules

/-!
# Ownership — Every object is freed once

The log of a boundary names, once each, the objects that were made and are dead, and it only grows
at its end.  A teardown that is told of every live object, in whatever order, destroys each of them
or finds it gone with its partner: no destruction is refused, nothing is left alive or linked, and
the log then names every object that was ever made, once (`Boundary.freed_once`).
-/

namespace LoadBridge

namespace Roster.Represents

variable {b : Boundary} {r : Roster}

/-- A live object is destroyed, on both sides. -/
theorem exists_destroy (h : Represents b r) (hr : r.WellFormed) {x : Freed} (hx : x ∈ r.live) :
    ∃ gone b' r', b.destroy x = .ok (gone, b') ∧ Represents b' r' ∧ r'.WellFormed ∧
      r.Destroys x gone r' := by
  obtain ⟨gone, r', hd⟩ := hr.exists_destroy hx
  have hsim := h.destroy hr x
  rw [hd] at hsim
  generalize hb : b.destroy x = out at hsim
  cases hsim with
  | ok gone h' => exact ⟨gone, _, r', rfl, h', hr.destroy hd, hr.destroys hd⟩

/-- **A teardown.**  It is never refused, makes nothing, and leaves alive only what was alive before
and what it was not told of. -/
theorem teardown (order : List Freed) {b : Boundary} {r : Roster} (h : Represents b r)
    (hr : r.WellFormed) : ∃ b' r', b.teardown order = .ok b' ∧ Represents b' r' ∧ r'.WellFormed ∧
      (∀ x ∈ r'.live, x ∈ r.live ∧ x ∉ order) ∧ ∀ x, r'.Created x ↔ r.Created x := by
  induction order generalizing b r with
  | nil => exact ⟨b, r, rfl, h, hr, fun x hx => ⟨hx, List.not_mem_nil⟩, fun _ => Iff.rfl⟩
  | cons x rest ih =>
      rw [Boundary.teardown, h.isAlive hr]
      by_cases hx : x ∈ r.live
      -- it is destroyed, perhaps with its partner
      · obtain ⟨gone, b₁, r₁, hd, h₁, hr₁, hdes⟩ := h.exists_destroy hr hx
        obtain ⟨b', r', ht, h', hr', hlive, hmade⟩ := ih h₁ hr₁
        rw [if_pos (decide_eq_true hx), hd]
        refine ⟨b', r', ht, h', hr', fun y hy => ?_, fun y => (hmade y).trans (hdes.created_iff y)⟩
        obtain ⟨hy₁, hyrest⟩ := hlive y hy
        obtain ⟨hyr, hygone⟩ := (hdes.mem_live y).1 hy₁
        have hyx : y ≠ x := fun hyx => hygone (hyx ▸ hdes.mem_gone)
        exact ⟨hyr, List.not_mem_cons_of_ne_of_not_mem hyx hyrest⟩
      -- it was never made, or it is gone
      · obtain ⟨b', r', ht, h', hr', hlive, hmade⟩ := ih h hr
        rw [if_neg (by simpa using hx)]
        refine ⟨b', r', ht, h', hr', fun y hy => ?_, hmade⟩
        obtain ⟨hyr, hyrest⟩ := hlive y hy
        have hyx : y ≠ x := fun hyx => hx (hyx ▸ hyr)
        exact ⟨hyr, List.not_mem_cons_of_ne_of_not_mem hyx hyrest⟩

theorem mem_liveObjects (h : Represents b r) (hr : r.WellFormed) {x : Freed} :
    x ∈ b.liveObjects ↔ x ∈ r.live := by
  rw [← congrArg live (h.roster_eq hr)]
  exact List.mem_toFinset.symm

/-- With no live object there is no link, and the log names every object that was made, once. -/
theorem of_live_empty (h : Represents b r) (hr : r.WellFormed) (hlive : r.live = ∅) :
    b.liveObjects = [] ∧ b.linkedPairs = [] ∧
      ∀ x, b.freed.count x = if b.isCreated x then 1 else 0 := by
  have hdead : ∀ x, x ∉ r.live := fun x hx => by simp [hlive] at hx
  refine ⟨?_, ?_, fun x => ?_⟩
  · exact List.eq_nil_iff_forall_not_mem.2 fun x hx => hdead x ((h.mem_liveObjects hr).1 hx)
  · rw [h.linkedPairs, Roster.linkedPairs, List.filterMap_eq_nil_iff]
    intro d _
    rw [Roster.pairOf, hr.link_of_not_live (hdead _), Option.map_none]
  · rw [h.freed, h.isCreated]
    by_cases hx : r.Created x
    · rw [if_pos (decide_eq_true hx)]
      exact List.count_eq_one_of_mem hr.freed_nodup (hr.mem_freed.2 ⟨hx, hdead x⟩)
    · rw [if_neg (by simpa using hx)]
      exact List.count_eq_zero.2 fun hf => hx (hr.mem_freed.1 hf).1

end Roster.Represents

namespace Boundary

open Roster

/-- **Exactly-once destruction.**  After any run the log names no object twice, names the objects
that were made and are dead, and only grows at its end.  A teardown of all live objects in any order
succeeds and leaves nothing alive, nothing linked, and every object that was made freed once. -/
theorem freed_once (ops : List Operation) :
    (run ops).freed.Nodup ∧
    (∀ x, x ∈ (run ops).freed ↔ (run ops).isCreated x ∧ ¬ (run ops).isAlive x) ∧
    (∀ later, (run ops).freed <+: (run (ops ++ later)).freed) ∧
    ∀ order, (run ops).liveObjects ⊆ order → ∃ b, (run ops).teardown order = .ok b ∧
      b.liveObjects = [] ∧ b.linkedPairs = [] ∧ (∀ x, b.isCreated x = (run ops).isCreated x) ∧
      ∀ x, b.freed.count x = if b.isCreated x then 1 else 0 := by
  have h := Represents.run ops
  have hr := WellFormed.run ops
  refine ⟨h.freed ▸ hr.freed_nodup, fun x => ?_, fun later => ?_, fun order horder => ?_⟩
  · rw [h.freed, hr.mem_freed, h.isCreated, h.isAlive hr, decide_eq_true_iff, decide_eq_true_iff]
  · rw [h.freed, (Represents.run (ops ++ later)).freed, Roster.run, Roster.run, List.foldl_append]
    exact freed_grows_foldl later _
  · obtain ⟨b, r, ht, h', hr', hlive, hmade⟩ := h.teardown order hr
    have hempty : r.live = ∅ := Finset.eq_empty_of_forall_notMem fun x hx =>
      (hlive x hx).2 (horder ((h.mem_liveObjects hr).2 (hlive x hx).1))
    obtain ⟨hnone, hpairs, hcount⟩ := h'.of_live_empty hr' hempty
    refine ⟨b, ht, hnone, hpairs, fun x => ?_, hcount⟩
    rw [h'.isCreated, h.isCreated]
    exact decide_eq_decide.2 (hmade x)

/-- A pair of either ownership, and an order in which both partners are gone before their turn. -/
theorem freed_once_pairs :
    (run [.constructViaFactory, .createInterface, .materialize ⟨1⟩]).liveObjects ⊆
        [.delegate ⟨0⟩, .interface ⟨1⟩, .interface ⟨0⟩, .delegate ⟨1⟩] ∧
      ∃ b, (run [.constructViaFactory, .createInterface, .materialize ⟨1⟩]).teardown
          [.delegate ⟨0⟩, .interface ⟨1⟩, .interface ⟨0⟩, .delegate ⟨1⟩] = .ok b ∧
        b.liveObjects = [] ∧ ∀ x, b.freed.count x = if b.isCreated x then 1 else 0 := by
  have hlive : (run [.constructViaFactory, .createInterface, .materialize ⟨1⟩]).liveObjects ⊆
      [.delegate ⟨0⟩, .interface ⟨1⟩, .interface ⟨0⟩, .delegate ⟨1⟩] := by decide
  obtain ⟨-, -, -, hteardown⟩ :=
    freed_once [.constructViaFactory, .createInterface, .materialize ⟨1⟩]
  obtain ⟨b, ht, hnone, -, -, hcount⟩ := hteardown _ hlive
  exact ⟨hlive, b, ht, hnone, hcount⟩

end Boundary

end LoadBridge
