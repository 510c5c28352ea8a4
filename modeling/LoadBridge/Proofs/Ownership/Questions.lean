import LoadBridge.Proofs.Ownership.Simulation

/-!
# Ownership — Questions

A boundary answers every question as the roster it represents does, and that roster is the one read
off the boundary (`Represents.roster_eq`).
-/

namespace LoadBridge

/-- A pair is made of its Delegate and of what it says of it, if it is linked. -/
theorem LinkedPair.map_link? (p : LinkedPair) :
    (p.link?.map fun l => (⟨l.1, p.delegate, l.2.ownership⟩ : LinkedPair)) =
      Option.guard LinkedPair.isLinked p := by
  obtain ⟨i, d, ownership⟩ := p
  cases ownership <;> simp [link?, Owner.ownership, isLinked, Option.guard]

namespace Roster

theorem pairOf_bind_link? (r : Roster) (d : DelegateHandle) :
    (r.pairOf d).bind LinkedPair.link? = r.link d := by
  cases hd : r.link d with
  | none => simp [pairOf, hd]
  | some l =>
      have hlink : (⟨l.1, d, l.2.ownership⟩ : LinkedPair).link? = some (l.1, l.2) :=
        LinkedPair.link?_eq_some_iff.2 ⟨rfl, rfl⟩
      simp [pairOf, hd, hlink]

theorem pairWith_interface_map_delegate {r : Roster} (h : r.Paired) (i : InterfaceHandle) :
    (r.pairWith (.interface i)).map LinkedPair.delegate = r.companion? i := by
  cases hc : r.companion? i with
  | none => simp [pairWith, hc]
  | some d =>
      obtain ⟨o, hd⟩ := (companion?_eq_some_iff h).1 hc
      simp [pairWith, pairOf, hc, hd]

namespace Represents

variable {b : Boundary} {r : Roster}

theorem companion (h : Represents b r) (hr : r.WellFormed)
    (i : InterfaceHandle) : b.companion i = r.companion i := by
  rw [Boundary.companion, Roster.companion, h.interfaceSlot]
  cases hc : r.check (.interface i) with
  | error e => rfl
  | ok _ =>
      show Except.ok ((b.pairIn (r.interfaceSlot i)).map LinkedPair.delegate) = _
      rw [h.pairIn_interfaceSlot hr.paired, pairWith_interface_map_delegate hr.paired]
      rfl

theorem interfaceOf (h : Represents b r) (hr : r.WellFormed)
    (d : DelegateHandle) : b.interfaceOf d = r.interfaceOf d := by
  rw [Boundary.interfaceOf, Roster.interfaceOf, h.delegateSlot]
  cases hc : r.check (.delegate d) with
  | error e => rfl
  | ok _ =>
      have hpair := h.pairIn_delegateSlot hr.paired d
      cases hd : r.link d with
      | none => simp [Except.map, bind, Except.bind, hpair, Roster.pairOf, hd]
      | some l => simp [Except.map, bind, Except.bind, hpair, Roster.pairOf, hd]

theorem pairOf (h : Represents b r) (hr : r.WellFormed)
    (d : DelegateHandle) : b.pairOf d = r.pairOf d := by
  rw [Boundary.pairOf, h.delegates, getElem?_map_delegates]
  split
  · exact h.pairIn_delegateSlot hr.paired d
  · next hc =>
    have hd : r.link d = none := hr.link_of_not_live fun hd => hc (hr.created_of_live hd)
    simp [Roster.pairOf, hd]

theorem isInterfaceAlive (h : Represents b r) (hr : r.WellFormed)
    (i : InterfaceHandle) : b.isInterfaceAlive i = decide (.interface i ∈ r.live) := by
  rw [Boundary.isInterfaceAlive, h.interfaces, getElem?_map_interfaces]
  split
  · rfl
  · next hc => simpa using fun hi => hc (hr.created_of_live hi)

theorem isDelegateAlive (h : Represents b r) (hr : r.WellFormed)
    (d : DelegateHandle) : b.isDelegateAlive d = decide (.delegate d ∈ r.live) := by
  rw [Boundary.isDelegateAlive, h.delegates, getElem?_map_delegates]
  split
  · rfl
  · next hc => simpa using fun hd => hc (hr.created_of_live hd)

theorem isAlive (h : Represents b r) (hr : r.WellFormed) (x : Freed) :
    b.isAlive x = decide (x ∈ r.live) := by
  cases x with
  | interface i => exact h.isInterfaceAlive hr i
  | delegate d => exact h.isDelegateAlive hr d

theorem isCreated (h : Represents b r) (x : Freed) :
    b.isCreated x = decide (r.Created x) := by
  cases x with
  | interface i => exact decide_eq_decide.2 (h.length_interfaces ▸ Iff.rfl)
  | delegate d => exact decide_eq_decide.2 (h.length_delegates ▸ Iff.rfl)

theorem liveInterfaces (h : Represents b r) (hr : r.WellFormed) :
    b.liveInterfaces = r.liveInterfaces := by
  rw [Boundary.liveInterfaces, h.length_interfaces]
  exact List.filter_congr fun i _ => h.isInterfaceAlive hr i

theorem liveDelegates (h : Represents b r) (hr : r.WellFormed) :
    b.liveDelegates = r.liveDelegates := by
  rw [Boundary.liveDelegates, h.length_delegates]
  exact List.filter_congr fun d _ => h.isDelegateAlive hr d

theorem linkedPairs (h : Represents b r) :
    b.linkedPairs = r.linkedPairs := by
  -- Both lists are read off the Delegates beside what the pairs say of them.
  let restore : DelegateHandle × Option (InterfaceHandle × Owner) → Option LinkedPair :=
    fun e => e.2.map fun l => ⟨l.1, e.1, l.2.ownership⟩
  have hpairs := congrArg (List.filterMap restore) h.pairs
  rw [List.filterMap_map, List.filterMap_map] at hpairs
  rw [Boundary.linkedPairs, ← List.filterMap_eq_filter]
  exact (List.filterMap_congr fun p _ => p.map_link?.symm).trans hpairs

/-- The roster that a boundary represents is the one read off it. -/
theorem roster_eq (h : Represents b r) (hr : r.WellFormed) :
    b.roster = r := by
  refine Roster.ext h.length_interfaces h.length_delegates ?_ ?_ h.freed
  · ext x
    have hlive : x ∈ r.live → r.Created x := hr.created_of_live
    simp only [Boundary.roster, Boundary.liveObjects, h.liveInterfaces hr, h.liveDelegates hr]
    cases x with
    | interface i => simpa [Roster.liveInterfaces, Roster.liveDelegates, Created] using hlive
    | delegate d => simpa [Roster.liveInterfaces, Roster.liveDelegates, Created] using hlive
  · funext d
    show (b.pairOf d).bind _ = _
    rw [h.pairOf hr, pairOf_bind_link?]

end Represents

end Roster

end LoadBridge
